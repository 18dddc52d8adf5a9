import FlowLint.Text.Printable

/-! The quoted form of a text in messages: between single quotes, or between double quotes if the
text holds a single quote and no double quote; a backslash stands before a backslash and before the
enclosing quote, and a character that is not printable has an escape. -/

namespace FlowLint.Text.Quoted

/-- The digits of `n` to the base 16, at least `width` of them, in small letters. -/
def hexDigits (width n : Nat) : List Char :=
  let digits := Nat.toDigits 16 n
  List.replicate (width - digits.length) '0' ++ digits

def encodeChar (quote c : Char) : List Char :=
  let n := c.toNat
  if c == quote || c == '\\' then ['\\', c]
  else if c == '\n' then ['\\', 'n']
  else if c == '\r' then ['\\', 'r']
  else if c == '\t' then ['\\', 't']
  else if isPrintable c then [c]
  else if n ≤ 0xFF then '\\' :: 'x' :: hexDigits 2 n
  else if n ≤ 0xFFFF then '\\' :: 'u' :: hexDigits 4 n
  else '\\' :: 'U' :: hexDigits 8 n

def quoteFor (s : List Char) : Char :=
  if s.contains '\'' && !s.contains '"' then '"' else '\''

/-- The quoted form of a text, as characters. -/
def encode (s : List Char) : List Char :=
  let quote := quoteFor s
  quote :: s.flatMap (encodeChar quote) ++ [quote]

/-- The quoted form of one character. -/
def ofChar (c : Char) : String := .ofList (encode [c])

/-- The quoted form of a text. -/
def ofString (s : String) : String := .ofList (encode s.toList)

example : ofChar '\t' = "'\\t'" ∧ ofChar '\x00' = "'\\x00'" ∧ ofChar '\'' = "\"'\"" := by
  decide +kernel
example : ofString "a'b\"c\\" = "'a\\'b\"c\\\\'" ∧ ofChar '\uFEFF' = "'\\ufeff'" := by
  decide +kernel

end FlowLint.Text.Quoted
