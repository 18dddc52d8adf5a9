import FlowLint.Json.Value
import FlowLint.Raised

/-! What is wrong with a JSON value that should describe something: an issue has a cause, the way to
the part that it is about, and that part. `Checked` is what was read, or all issues that were met;
reading several parts side by side collects the issues of all of them in order. An error that is no
issue ends the reading. -/

namespace FlowLint.Json

/-- A step from a value to a part of it. -/
inductive Segment where
  | member (name : String)
  | item (index : Nat)
  deriving DecidableEq, Repr

def Segment.toJson : Segment → Json
  | .member name => .string name
  | .item index => .ofNat index

/-- Why a value does not describe what it should. -/
inductive Cause where
  | missing
  | notText
  | notWhole
  | notNumeral
  | fraction
  | notFinite
  | tooLarge
  | belowOne
  /-- The value is none of the given texts. -/
  | notChoice (names : List String)
  /-- The value is none of the names of a kind of thing. -/
  | notName (names : List String)
  | notTuple
  | notList
  | notDictionary
  /-- The value is no object that describes a thing of the given type. -/
  | notRecord (type : String)
  | notBody
  /-- The value is not what its reader takes, for the given reason. -/
  | refused (reason : String)
  deriving DecidableEq, Repr

namespace Cause

def kind : Cause → String
  | .missing => "missing"
  | .notText => "string_type"
  | .notWhole => "int_type"
  | .notNumeral => "int_parsing"
  | .fraction => "int_from_float"
  | .notFinite => "finite_number"
  | .tooLarge => "int_parsing_size"
  | .belowOne => "greater_than_equal"
  | .notChoice _ => "literal_error"
  | .notName _ => "enum"
  | .notTuple => "tuple_type"
  | .notList => "list_type"
  | .notDictionary => "dict_type"
  | .notRecord _ => "model_type"
  | .notBody => "model_attributes_type"
  | .refused _ => "value_error"

/-- The names in quotes, with commas between them and an "or" before the last. -/
def alternatives : List String → String
  | [] => ""
  | [a] => "'" ++ a ++ "'"
  | [a, b] => "'" ++ a ++ "' or '" ++ b ++ "'"
  | a :: b :: c :: rest => "'" ++ a ++ "', " ++ alternatives (b :: c :: rest)

def message : Cause → String
  | .missing => "Field required"
  | .notText => "Input should be a valid string"
  | .notWhole => "Input should be a valid integer"
  | .notNumeral => "Input should be a valid integer, unable to parse string as an integer"
  | .fraction => "Input should be a valid integer, got a number with a fractional part"
  | .notFinite => "Input should be a finite number"
  | .tooLarge => "Unable to parse input string as an integer, exceeded maximum size"
  | .belowOne => "Input should be greater than or equal to 1"
  | .notChoice names => "Input should be " ++ alternatives names
  | .notName names => "Input should be " ++ alternatives names
  | .notTuple => "Input should be a valid tuple"
  | .notList => "Input should be a valid list"
  | .notDictionary => "Input should be a valid dictionary"
  | .notRecord type => "Input should be a valid dictionary or instance of " ++ type
  | .notBody => "Input should be a valid dictionary or object to extract fields from"
  | .refused reason => "Value error, " ++ reason

/-- What a client may want to know beyond the message. -/
def context : Cause → List (String × Json)
  | .belowOne => [("ge", .ofNat 1)]
  | .notChoice names => [("expected", .string (alternatives names))]
  | .notName names => [("expected", .string (alternatives names))]
  | _ => []

end Cause

structure Issue where
  cause : Cause
  /-- The way to the part. -/
  path : List Segment := []
  part : Json
  deriving Repr

namespace Issue

def under (s : Segment) (i : Issue) : Issue := { i with path := s :: i.path }

def members (i : Issue) : List (String × Json) := [
  ("type", .string i.cause.kind), ("loc", .array (i.path.map Segment.toJson)),
  ("msg", .string i.cause.message), ("input", i.part)]

def toJson (i : Issue) : Json := .object i.members

def toJsonWithContext (i : Issue) : Json :=
  if i.cause.context.isEmpty then i.toJson
  else .object (i.members ++ [("ctx", .object i.cause.context)])

end Issue

/-- What was read, or the issues that were met, or the error that ended the reading. -/
inductive Checked (α : Type) where
  | ok (value : α)
  | issues (first : Issue) (rest : List Issue)
  | raised (error : Raised)

namespace Checked

variable {α β : Type}

instance : Applicative Checked where
  pure := .ok
  seq f x :=
    match f, x () with
    | .raised e, _ => .raised e
    | _, .raised e => .raised e
    | .ok f, .ok a => .ok (f a)
    | .ok _, .issues i rest => .issues i rest
    | .issues i rest, .ok _ => .issues i rest
    | .issues i rest, .issues j more => .issues i (rest ++ j :: more)

def fail (cause : Cause) (part : Json) : Checked α := .issues { cause, part } []

/-- What was read of a part, as a part of the whole. -/
def under (s : Segment) : Checked α → Checked α
  | .ok a => .ok a
  | .issues i rest => .issues (i.under s) (rest.map (·.under s))
  | .raised e => .raised e

/-- Goes on with what was read. -/
def andThen (x : Checked α) (f : α → Checked β) : Checked β :=
  match x with
  | .ok a => f a
  | .issues i rest => .issues i rest
  | .raised e => .raised e

/-- What was read, or what `refuse` and `stop` make of the issues and of the error. -/
def toExcept {ε : Type} (refuse : List Issue → ε) (stop : Raised → ε) : Checked α → Except ε α
  | .ok a => .ok a
  | .issues i rest => .error (refuse (i :: rest))
  | .raised e => .error (stop e)

end Checked

end FlowLint.Json
