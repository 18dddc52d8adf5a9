import FlowLint.Json.Binary
import FlowLint.Json.Issue
import FlowLint.Text.Integer
import FlowLint.Text.Pieces

/-! Shapes of JSON values: readers for texts, integers, names and lists, and for the members of an
object. Integers may come as numerals in texts. -/

namespace FlowLint.Json.Shape

variable {α : Type}

/-- Reads a text. -/
def text : Json → Checked String
  | .string s => .ok s
  | v => .fail .notText v

/-- The digits of a text in which single low lines may stand between digits. -/
def digits? (s : List Char) : Option (List Char) :=
  let groups := Text.pieces (· == '_') s
  if groups.all fun g => !g.isEmpty && g.all fun c => '0' ≤ c && c ≤ '9' then some groups.flatten
  else none

/-- The text before a point behind which nothing but zeros stands; all of it if it has no point. -/
def beforePoint? (s : List Char) : Option (List Char) :=
  match s.dropWhile (· != '.') with
  | [] => some s
  | _ :: zeros =>
    if !zeros.isEmpty && zeros.all (· == '0') then some (s.takeWhile (· != '.')) else none

/-- The text between the blanks at its ends. -/
def trimMargins (s : List Char) : List Char :=
  ((s.dropWhile Text.Integer.isMargin).reverse.dropWhile Text.Integer.isMargin).reverse

/-- Reads the integer that a numeral in ASCII digits denotes. -/
def numeral (s : String) : Checked Int :=
  let (negative, rest) := Text.Integer.takeSign (trimMargins s.toList)
  match (beforePoint? rest).bind digits? with
  | none => .fail .notNumeral (.string s)
  | some ds =>
    let ds := ds.dropWhile (· == '0')
    if Text.Integer.maxDigits < ds.length then .fail .tooLarge (.string s)
    else
      let n := Text.Integer.ofDigits (ds.map fun c => c.toNat - 0x30)
      .ok (if negative then -(n : Int) else n)

/-- Reads an integer. Numbers without a fraction, numerals and truth values count as integers. -/
def integer : Json → Checked Int
  | .number (.integer n) => .ok n
  | .number (.decimal negative mantissa exponent) =>
    let v := .number (.decimal negative mantissa exponent)
    match whole mantissa exponent with
    | .fraction => .fail .fraction v
    | .tooLarge => .fail .notFinite v
    | .integer n =>
      if Nat.pow 2 63 ≤ n then .fail .tooLarge v else .ok (if negative then -(n : Int) else n)
  | .number n => .fail .notFinite (.number n)
  | .bool b => .ok (if b then 1 else 0)
  | .string s => numeral s
  | v => .fail .notWhole v

def named (all : List α) (name : α → String) (unknown : List String → Cause) (v : Json) :
    Checked α :=
  match v with
  | .string s =>
    match all.find? (name · == s) with
    | some a => .ok a
    | none => .fail (unknown (all.map name)) v
  | v => .fail (unknown (all.map name)) v

/-- Reads the items of an array, which are numbered from `first` on. -/
def itemsFrom (read : Json → Checked α) (first : Nat) : List Json → Checked (List α)
  | [] => .ok []
  | v :: rest => List.cons <$> (read v).under (.item first) <*> itemsFrom read (first + 1) rest

def list (read : Json → Checked α) (otherwise : Cause) : Json → Checked (List α)
  | .array items => itemsFrom read 0 items
  | v => .fail otherwise v

/-- Reads a value that may be null. -/
def optional (read : Json → Checked α) : Json → Checked (Option α)
  | .null => .ok none
  | v => some <$> read v

/-- Reads the member with the given name; `fallback` stands for it if there is none. -/
def member (name : String) (read : Json → Checked α) (fallback : α)
    (members : List (String × Json)) : Checked α :=
  match members.lookup name with
  | some v => (read v).under (.member name)
  | none => .ok fallback

def required (name : String) (read : Json → Checked α) (members : List (String × Json)) :
    Checked α :=
  match members.lookup name with
  | some v => (read v).under (.member name)
  | none => .issues ⟨.missing, [.member name], .object members⟩ []

/-- Reads an object by its members. -/
def record (read : List (String × Json) → Checked α) (otherwise : Cause) : Json → Checked α
  | .object members => read members
  | v => .fail otherwise v

end FlowLint.Json.Shape
