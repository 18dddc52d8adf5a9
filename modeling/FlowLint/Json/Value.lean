/-! JSON values. Numbers are kept as they are written: an integer, or a decimal fraction with the
binary number that stands nearest to it. The members of an object keep their order, and no two of
them have the same name if the object is built with `insert`. -/

namespace FlowLint

/-- A number as it is written. -/
inductive Json.Number where
  | integer (n : Int)
  /-- The digits `mantissa`, with the point moved by `exponent` places. -/
  | decimal (negative : Bool) (mantissa : Nat) (exponent : Int)
  | infinity (negative : Bool)
  | notANumber
  deriving DecidableEq, Repr

inductive Json where
  | null
  | bool (b : Bool)
  | number (n : Json.Number)
  | string (s : String)
  | array (items : List Json)
  | object (members : List (String × Json))
  deriving Repr, BEq, Inhabited

namespace Json

/-- Sets a member: at its place if there is one of that name, else at the end. -/
def insert (name : String) (value : Json) : List (String × Json) → List (String × Json)
  | [] => [(name, value)]
  | (n, v) :: rest => if n == name then (n, value) :: rest else (n, v) :: insert name value rest

def member? (name : String) : Json → Option Json
  | .object members => members.lookup name
  | _ => none

def ofNat (n : Nat) : Json := .number (.integer n)

def ofInt (n : Int) : Json := .number (.integer n)

/-- A value or null. -/
def ofOption {α : Type} (f : α → Json) : Option α → Json
  | none => .null
  | some a => f a

def ofStrings (items : List String) : Json := .array (items.map .string)

end Json

end FlowLint
