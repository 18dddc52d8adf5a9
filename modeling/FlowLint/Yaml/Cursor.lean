import FlowLint.Yaml.Fault

/-! Reading a text character by character. A text is admitted in blocks: a block is examined as a
whole when its first character is needed, so a character that may not occur hides everything from
the start of its block on, and nothing before. `Cursor.ofText` is the view of a fresh text; `Scan`
is the type of readers. -/

namespace FlowLint.Yaml

/-- A character that a YAML text may hold. -/
def isAllowed (c : Char) : Bool :=
  let n := c.toNat
  n == 9 || n == 10 || n == 13 || (0x20 ≤ n && n ≤ 0x7E) || n == 0x85 ||
    (0xA0 ≤ n && n ≤ 0xFFFD) || 0x10000 ≤ n

/-- A character that ends a line. -/
def isBreak (c : Char) : Bool :=
  c == '\n' || c == '\r' || c == '\u0085' || c == '\u2028' || c == '\u2029'

def endMark : Char := '\x00'

def isEnd (c : Char) : Bool := isBreak c || c == endMark

/-- The end of a line or of the text, a space or a tab. -/
def isGap (c : Char) : Bool := isEnd c || c == ' ' || c == '\t'

def isEndOrSpace (c : Char) : Bool := isEnd c || c == ' '

/-- The rest of a text. -/
structure Cursor where
  rest : List Char
  /-- The place of the first of them. -/
  position : Position
  /-- Why nothing can be read behind them; `none` if the text ends there. -/
  barrier : Option Fault
  /-- A number that no place in the text exceeds. -/
  size : Nat

/-- The number of characters in the first block, and in each later one. -/
def firstBlock : Nat := 8192
def laterBlock : Nat := 4096

/-- Where the block begins that holds the character at `offset`. -/
def blockStart (offset : Nat) : Nat :=
  if offset < firstBlock then 0
  else firstBlock + (offset - firstBlock) / laterBlock * laterBlock

/-- A text from its beginning. -/
def Cursor.ofText (text : List Char) : Cursor :=
  match text.dropWhile isAllowed with
  | [] => ⟨text, .zero, none, text.length⟩
  | c :: later =>
    let offset := text.length - later.length - 1
    ⟨text.take (blockStart offset), .zero, some (.character c offset), text.length⟩

/-- The cursor behind the next `n` characters. -/
def Cursor.advance : Nat → Cursor → Cursor
  | 0, s => s
  | n + 1, s =>
    match s.rest with
    | [] => s
    | c :: rest => Cursor.advance n { s with rest, position := s.position.after c rest.head? }

/-- A reader: it moves the cursor and gives a value, or it finds a fault. -/
abbrev Scan (α : Type) : Type := StateT Cursor (Except Fault) α

namespace Scan

/-- The place of the next character. -/
def position : Scan Position := return (← get).position

/-- The column of the next character. -/
def column : Scan Nat := return (← get).position.column

/-- A bound on the number of characters that are left, for loops. -/
def bound : Scan Nat := return (← get).size + 1

def peekAt (n : Nat) : Scan Char := do
  let s ← get
  match s.rest.drop n, s.barrier with
  | c :: _, _ => return c
  | [], none => return endMark
  | [], some fault => throw fault

def peek : Scan Char := peekAt 0

/-- Moves past `n` characters; the one behind them has to be readable. -/
def skip (n : Nat) : Scan Unit := do
  modify (·.advance n)
  let _ ← peek

/-- Reads the longest run of characters that satisfy `p`. -/
def takeWhile (p : Char → Bool) : Scan (List Char) := do
  let run := (← get).rest.takeWhile p
  skip run.length
  return run

/-- Moves past the longest run of characters that satisfy `p`. -/
def skipWhile (p : Char → Bool) : Scan Unit := do
  let _ ← takeWhile p

def sees (t : List Char) : Scan Bool := do
  let _ ← peekAt (t.length - 1)
  return t.isPrefixOf (← get).rest

/-- A marker of document start or document end, with a gap behind it, comes next. -/
def seesMarker (t : List Char) : Scan Bool := do
  if ← sees t then return isGap (← peekAt t.length)
  return false

def startMarker : List Char := ['-', '-', '-']

def endMarker : List Char := ['.', '.', '.']

/-- One of the two markers comes next. -/
def seesSeparator : Scan Bool := do
  if ← seesMarker startMarker then return true
  seesMarker endMarker

/-- Reads the end of a line, if it comes next. All ends of lines are read as line feeds but U+2028
and U+2029, which stay themselves. -/
def lineBreak : Scan (List Char) := do
  let c ← peek
  if c == '\r' || c == '\n' || c == '\u0085' then
    skip (if ← sees ['\r', '\n'] then 2 else 1)
    return ['\n']
  else if isBreak c then
    skip 1
    return [c]
  else return []

/-- Reports a problem at the next character. -/
def failHere {α : Type} (task : Task) (start : Position) (problem : Problem) : Scan α := do
  throw (.during task start problem (← position))

end Scan

end FlowLint.Yaml
