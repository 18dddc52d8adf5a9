import FlowLint.Text.Integer
import FlowLint.Json.Value

/-! Reading JSON. A fault names what was wanted and the offset where it was missed. -/

namespace FlowLint.Json

/-- What is wrong with a text. -/
inductive Flaw where
  | wantedValue
  | wantedName
  | wantedColon
  | wantedComma
  | extraData
  | badEscape
  | badCodeEscape
  | controlCharacter
  | unterminatedString
  | byteOrderMark
  deriving DecidableEq, Repr

def Flaw.text : Flaw → String
  | .wantedValue => "Expecting value"
  | .wantedName => "Expecting property name enclosed in double quotes"
  | .wantedColon => "Expecting ':' delimiter"
  | .wantedComma => "Expecting ',' delimiter"
  | .extraData => "Extra data"
  | .badEscape => "Invalid \\escape"
  | .badCodeEscape => "Invalid \\uXXXX escape"
  | .controlCharacter => "Invalid control character at"
  | .unterminatedString => "Unterminated string starting at"
  | .byteOrderMark => "Unexpected UTF-8 BOM (decode using utf-8-sig)"

/-- Why a text is no JSON value. -/
inductive ReadError where
  /-- A flaw with its line and column, counted from 1, and its offset. -/
  | flaw (what : Flaw) (line column offset : Nat)
  | integer (fault : Text.Integer.Fault)
  deriving DecidableEq, Repr

def ReadError.message : ReadError → String
  | .flaw what line column offset => s!"{what.text}: line {line} column {column} (char {offset})"
  | .integer fault => fault.message

/-- A fault inside a text: a flaw at an offset, or an integer that is too long. -/
inductive Reader.Fault where
  | flaw (what : Flaw) (offset : Nat)
  | integer (fault : Text.Integer.Fault)

/-- The rest of a text and its offset. -/
structure Reader.State where
  rest : List Char
  offset : Nat

abbrev Reader (α : Type) : Type := StateT Reader.State (Except Reader.Fault) α

namespace Reader

/-- White space between the parts of a value. -/
def isSpace (c : Char) : Bool := c == ' ' || c == '\t' || c == '\n' || c == '\r'

def isAsciiDigit (c : Char) : Bool := '0' ≤ c && c ≤ '9'

/-- The value of a hexadecimal digit. -/
def hexValue? (c : Char) : Option Nat :=
  if isAsciiDigit c then some (c.toNat - 0x30)
  else if 'a' ≤ c && c ≤ 'f' then some (c.toNat - 0x57)
  else if 'A' ≤ c && c ≤ 'F' then some (c.toNat - 0x37)
  else none

def fail {α : Type} (what : Flaw) (offset : Nat) : Reader α := throw (.flaw what offset)

def offset : Reader Nat := return (← get).offset

def peek? : Reader (Option Char) := return (← get).rest.head?

/-- Moves past `n` characters. -/
def skip (n : Nat) : Reader Unit :=
  modify fun s => ⟨s.rest.drop n, s.offset + n⟩

def takeWhile (p : Char → Bool) : Reader (List Char) := do
  let run := (← get).rest.takeWhile p
  skip run.length
  return run

def skipSpace : Reader Unit := do
  let _ ← takeWhile isSpace

/-- Moves past `t`, if it comes next. -/
def accept (t : String) : Reader Bool := do
  let t := t.toList
  if t.isPrefixOf (← get).rest then
    skip t.length
    return true
  else return false

/-- The number that four hexadecimal digits denote. -/
def code? : List Char → Option Nat
  | [a, b, c, d] => do
    let a ← hexValue? a
    let b ← hexValue? b
    let c ← hexValue? c
    let d ← hexValue? d
    return ((a * 16 + b) * 16 + c) * 16 + d
  | _ => none

/-- The second half of a character beyond U+FFFF, as a second escape, together with the first. The
text has to go on behind it. -/
def lowHalf? (high : Nat) : List Char → Option Nat
  | '\\' :: 'u' :: s => do
    let low ← code? (s.take 4)
    if (s.drop 4).isEmpty then none
    else if 0xDC00 ≤ low ∧ low ≤ 0xDFFF then
      some (0x10000 + (high - 0xD800) * 0x400 + (low - 0xDC00))
    else none
  | _ => none

/-- Reads the four digits behind `\u`. Two escapes may make one character; a half without its other
half is read as U+FFFD. -/
def codeEscape : Reader Char := do
  let place ← offset
  let s := (← get).rest
  if (s.drop 4).isEmpty then fail .badCodeEscape (place - 1)
  match code? (s.take 4) with
  | none => fail .badCodeEscape (place - 1)
  | some code =>
    skip 4
    if 0xD800 ≤ code && code ≤ 0xDBFF then
      match lowHalf? code (← get).rest with
      | some full =>
        skip 6
        return Char.ofNat full
      | none => return '\uFFFD'
    else if 0xDC00 ≤ code && code ≤ 0xDFFF then return '\uFFFD'
    else return Char.ofNat code

/-- The character that a letter behind a backslash stands for. -/
def escapes : List (Char × Char) := [
  ('"', '"'), ('\\', '\\'), ('/', '/'), ('b', '\x08'), ('f', '\x0c'), ('n', '\n'), ('r', '\r'),
  ('t', '\t')]

/-- Reads a string behind its opening quote, which stands at `start`. -/
def stringRest (start : Nat) : Nat → List Char → Reader (List Char)
  | 0, _ => fail .unterminatedString start
  | fuel + 1, done => do
    let run ← takeWhile fun c => c != '"' && c != '\\' && 0x20 ≤ c.toNat
    let done := done ++ run
    match ← peek? with
    | none => fail .unterminatedString start
    | some '"' =>
      skip 1
      return done
    | some '\\' =>
      let place ← offset
      skip 1
      match ← peek? with
      | none => fail .unterminatedString start
      | some 'u' =>
        skip 1
        let c ← codeEscape
        stringRest start fuel (done ++ [c])
      | some c =>
        match escapes.lookup c with
        | some d =>
          skip 1
          stringRest start fuel (done ++ [d])
        | none => fail .badEscape place
    | some _ => fail .controlCharacter (← offset)

/-- Reads a string from its opening quote on. -/
def string (fuel : Nat) : Reader String := do
  let start ← offset
  skip 1
  return .ofList (← stringRest start fuel [])

/-- The digits of an exponent at the start of a text, with the sign and the number of characters. -/
def exponent? : List Char → Option (Bool × List Char × Nat)
  | e :: s =>
    if e == 'e' || e == 'E' then
      let (negative, s, signs) := match s with
        | '-' :: s => (true, s, 1)
        | '+' :: s => (false, s, 1)
        | s => (false, s, 0)
      let digits := s.takeWhile isAsciiDigit
      if digits.isEmpty then none else some (negative, digits, 1 + signs + digits.length)
    else none
  | [] => none

/-- The number that ASCII digits denote. -/
def ofDigits (ds : List Char) : Nat := ds.foldl (fun n d => 10 * n + (d.toNat - 0x30)) 0

/-- Reads a number; `none` if none comes next. -/
def number? : Reader (Option Number) := do
  let s := (← get).rest
  let (negative, s) := match s with
    | '-' :: s => (true, s)
    | s => (false, s)
  let intDigits := match s with
    | '0' :: _ => ['0']
    | s => s.takeWhile isAsciiDigit
  if intDigits.isEmpty then return none
  let s := s.drop intDigits.length
  let fraction := match s with
    | '.' :: s => s.takeWhile isAsciiDigit
    | _ => []
  let s := if fraction.isEmpty then s else s.drop (fraction.length + 1)
  let point := if fraction.isEmpty then 0 else fraction.length + 1
  let signWidth := if negative then 1 else 0
  match exponent? s with
  | some (negativeExponent, digits, width) =>
    skip (signWidth + intDigits.length + point + width)
    let e : Int := ofDigits digits
    let e := if negativeExponent then -e else e
    return some (.decimal negative (ofDigits (intDigits ++ fraction)) (e - fraction.length))
  | none =>
    skip (signWidth + intDigits.length + point)
    if !fraction.isEmpty then
      return some (.decimal negative (ofDigits (intDigits ++ fraction)) (-(fraction.length : Int)))
    if Text.Integer.maxDigits < intDigits.length then
      throw (.integer (.tooLong intDigits.length))
    let n : Int := ofDigits intDigits
    return some (.integer (if negative then -n else n))

mutual

def value : Nat → Reader Json
  | 0 => do fail .wantedValue (← offset)
  | fuel + 1 => do
    match ← peek? with
    | some '"' => return .string (← string (fuel + 1))
    | some '[' =>
      skip 1
      skipSpace
      if ← accept "]" then return .array []
      return .array (← items fuel)
    | some '\x7b' =>
      skip 1
      skipSpace
      if ← accept "\x7d" then return .object []
      return .object (← members fuel [])
    | _ =>
      if ← accept "null" then return .null
      if ← accept "true" then return .bool true
      if ← accept "false" then return .bool false
      if ← accept "NaN" then return .number .notANumber
      if ← accept "Infinity" then return .number (.infinity false)
      if ← accept "-Infinity" then return .number (.infinity true)
      match ← number? with
      | some n => return .number n
      | none => fail .wantedValue (← offset)

/-- Reads the items of an array up to its closing bracket. -/
def items : Nat → Reader (List Json)
  | 0 => do fail .wantedValue (← offset)
  | fuel + 1 => do
    let v ← value fuel
    skipSpace
    if ← accept "]" then return [v]
    if !(← accept ",") then fail .wantedComma (← offset)
    skipSpace
    return v :: (← items fuel)

/-- Reads the members of an object up to its closing brace; of two with the same name the later one
counts. -/
def members : Nat → List (String × Json) → Reader (List (String × Json))
  | 0, _ => do fail .wantedName (← offset)
  | fuel + 1, done => do
    if (← peek?) != some '"' then fail .wantedName (← offset)
    let name ← string (fuel + 1)
    skipSpace
    if !(← accept ":") then fail .wantedColon (← offset)
    skipSpace
    let v ← value fuel
    let done := insert name v done
    skipSpace
    if ← accept "\x7d" then return done
    if !(← accept ",") then fail .wantedComma (← offset)
    skipSpace
    members fuel done

end

def whole : Reader Json := do
  if (← peek?) == some '\uFEFF' then fail .byteOrderMark 0
  skipSpace
  let v ← value (2 * (← get).rest.length + 2)
  skipSpace
  if (← peek?).isSome then fail .extraData (← offset)
  return v

end Reader

def ReadError.ofFlaw (text : List Char) (what : Flaw) (offset : Nat) : ReadError :=
  let before := text.take offset
  .flaw what (before.count '\n' + 1) ((before.reverse.takeWhile (· != '\n')).length + 1) offset

/-- The value that a text denotes. -/
def read (text : String) : Except ReadError Json :=
  match Reader.whole.run ⟨text.toList, 0⟩ with
  | .ok (v, _) => .ok v
  | .error (.flaw what offset) => .error (.ofFlaw text.toList what offset)
  | .error (.integer fault) => .error (.integer fault)

end FlowLint.Json
