import FlowLint.Text.Quoted
import FlowLint.Json.Value

/-! Writing JSON in ASCII without white space. -/

namespace FlowLint.Json

/-- Sixteen bits as an escape. -/
def escapeUnit (n : Nat) : List Char := '\\' :: 'u' :: Text.Quoted.hexDigits 4 n

def writeChar (c : Char) : List Char :=
  let n := c.toNat
  if c == '"' || c == '\\' then ['\\', c]
  else if 0x20 ≤ n && n ≤ 0x7E then [c]
  else if n ≤ 0xFFFF then escapeUnit n
  else
    let m := n - 0x10000
    escapeUnit (0xD800 + m / 0x400) ++ escapeUnit (0xDC00 + m % 0x400)

def writeString (s : String) : List Char := '"' :: s.toList.flatMap writeChar ++ ['"']

def Number.write : Number → List Char
  | .integer n => (toString n).toList
  | .decimal negative mantissa exponent =>
    (if negative then ['-'] else []) ++ (toString mantissa).toList ++ 'e' ::
      (toString exponent).toList
  | .infinity negative => (if negative then ['-'] else []) ++ "Infinity".toList
  | .notANumber => "NaN".toList

mutual

def write : Json → List Char
  | .null => "null".toList
  | .bool b => (if b then "true" else "false").toList
  | .number n => n.write
  | .string s => writeString s
  | .array items => '[' :: writeItems items ++ [']']
  | .object members => '\x7b' :: writeMembers members ++ ['\x7d']

def writeItems : List Json → List Char
  | [] => []
  | [v] => write v
  | v :: w :: rest => write v ++ ',' :: writeItems (w :: rest)

def writeMembers : List (String × Json) → List Char
  | [] => []
  | [(name, v)] => writeString name ++ ':' :: write v
  | (name, v) :: m :: rest => writeString name ++ ':' :: write v ++ ',' :: writeMembers (m :: rest)

end

/-- The text of a value. -/
def render (v : Json) : String := .ofList (write v)

end FlowLint.Json
