import FlowLint.Text.Blank
import FlowLint.Text.Digit
import FlowLint.Text.Quoted

/-! Integers written in decimal digits of any script: blanks around them, one sign, and single low
lines between digits are allowed. A number that is read or written has at most 4300 digits. -/

namespace FlowLint.Text.Integer

/-- The largest number of digits that is read or written. -/
def maxDigits : Nat := 4300

/-- Why a text is not read as an integer, or an integer not written. -/
inductive Fault where
  | notInteger (text : String)
  | tooLong (digits : Nat)
  /-- An integer has too many digits to be written. -/
  | tooLarge
  deriving DecidableEq, Repr

/-- What is shown of a text that is no integer: its quoted form, cut after 200 characters. -/
def Fault.message : Fault → String
  | .notInteger text =>
    "invalid literal for int() with base 10: " ++
      .ofList ((Quoted.encode text.toList).take 200)
  | .tooLong digits =>
    s!"Exceeds the limit ({maxDigits} digits) for integer string conversion: value has {digits} " ++
      "digits; use sys.set_int_max_str_digits() to increase the limit"
  | .tooLarge =>
    s!"Exceeds the limit ({maxDigits} digits) for integer string conversion; " ++
      "use sys.set_int_max_str_digits() to increase the limit"

/-- The values of the digits at the start of a text, and the rest. A low line is passed over if a
digit follows; the flag tells that the character before was a digit. -/
def takeDigits : Bool → List Char → List Nat × List Char
  | _, [] => ([], [])
  | afterDigit, c :: s =>
    match decimalValue? c with
    | some d => let (ds, rest) := takeDigits true s; (d :: ds, rest)
    | none =>
      if c == '_' && afterDigit && (s.head?.any isDecimal) then takeDigits false s
      else ([], c :: s)

/-- The number with the given decimal digits. -/
def ofDigits (ds : List Nat) : Nat := ds.foldl (fun n d => 10 * n + d) 0

/-- Blanks that may stand around a number: the information separators are not among them. -/
def isMargin (c : Char) : Bool := isBlank c && !(0x1C ≤ c.toNat && c.toNat ≤ 0x1F)

/-- A sign at the start of a text, and the rest. -/
def takeSign : List Char → Bool × List Char
  | '-' :: s => (true, s)
  | '+' :: s => (false, s)
  | s => (false, s)

/-- The integer that a text denotes. Digits beyond the limit are an error even if what follows them
is none of a number. -/
def read (text : String) : Except Fault Int :=
  let (negative, s) := takeSign (text.toList.dropWhile isMargin)
  let (ds, rest) := takeDigits false s
  if rest.head? == some '_' then .error (.notInteger text)
  else if maxDigits < ds.length then .error (.tooLong ds.length)
  else if ds.isEmpty || !rest.all isMargin then .error (.notInteger text)
  else .ok (if negative then -(ofDigits ds) else ofDigits ds)

/-- The least number with too many digits. -/
def bound : Nat := Nat.pow 10 maxDigits

/-- The decimal digits of a number. -/
def write (n : Nat) : Except Fault String :=
  if bound ≤ n then .error .tooLarge else .ok (toString n)

example : (read " -1_000 ").toOption = some (-1000) ∧ (read "٣٤").toOption = some 34 := by
  decide +kernel
example : (read "1__0").toOption = none ∧ (read "+ 5").toOption = none := by decide +kernel
example : (Fault.notInteger "²").message = "invalid literal for int() with base 10: '²'" := by
  decide +kernel

end FlowLint.Text.Integer
