import FlowLint.Yaml.Cursor

/-! Plain scalars: text without quotes. `plainRun` gives the part of one line that belongs to the
scalar; the spaces and line ends between two parts are folded. -/

namespace FlowLint.Yaml

/-- What a scanned scalar is: its text, where it stops, and whether a simple key may follow. -/
structure Scanned where
  text : List Char
  stop : Position
  keyMayFollow : Bool

/-- A character that ends a plain scalar inside a flow collection. -/
def isFlowIndicator (c : Char) : Bool :=
  c == ',' || c == ':' || c == '?' || c == '[' || c == ']' || c == '\x7b' || c == '\x7d'

/-- A gap comes next; so does the end of the text. -/
def gapNext : List Char → Bool
  | [] => true
  | c :: _ => isGap c

/-- The part of a line, up to a gap, that belongs to a plain scalar. A colon before a gap ends it. A
colon before anything else belongs to it, and so does a question mark but in version 1.1. -/
def plainRun (inFlow old : Bool) : List Char → List Char
  | [] => []
  | c :: s =>
    if isGap c then []
    else if c == ':' then (if gapNext s then [] else c :: plainRun inFlow old s)
    else if c == '?' && !old then c :: plainRun inFlow old s
    else if inFlow && isFlowIndicator c then []
    else c :: plainRun inFlow old s

namespace Scan

/-- Reads a plain run. The character behind it is looked at, and the next one too if that is a
colon. -/
def plainPart (inFlow old : Bool) : Scan (List Char) := do
  let run := plainRun inFlow old (← get).rest
  if (← peekAt run.length) == ':' then
    let _ ← peekAt (run.length + 1)
  skip run.length
  return run

/-- Reads spaces and further line ends; `none` at a document separator. -/
def plainBreaks : Nat → List Char → Scan (Option (List Char))
  | 0, breaks => return some breaks
  | fuel + 1, breaks => do
    let c ← peek
    if c == ' ' then
      skip 1
      plainBreaks fuel breaks
    else if isBreak c then
      let b ← lineBreak
      if ← seesSeparator then return none
      plainBreaks fuel (breaks ++ b)
    else return some breaks

/-- One line end among further ones: a single one becomes a space, of several the first is dropped;
an end that is no line feed stays. -/
def foldBreaks (first breaks : List Char) : List Char :=
  if first != ['\n'] then first ++ breaks
  else if breaks.isEmpty then [' ']
  else breaks

/-- Reads the spaces and line ends behind a part of a plain scalar: what they contribute if another
part follows, and whether a line end was read. -/
def plainSpaces : Scan (List Char × Bool) := do
  let spaces ← takeWhile (· == ' ')
  if isBreak (← peek) then
    let first ← lineBreak
    if ← seesSeparator then return ([], true)
    match ← plainBreaks (← bound) [] with
    | none => return ([], true)
    | some breaks => return (foldBreaks first breaks, true)
  else return (spaces, false)

/-- Reads the parts of a plain scalar from the cursor on. A later line belongs to it if its column
is at least `indent`. -/
def plainParts (inFlow old : Bool) (indent : Nat) : Nat → Scanned → List Char → Scan Scanned
  | 0, done, _ => return done
  | fuel + 1, done, spaces => do
    if (← peek) == '#' then return done
    let part ← plainPart inFlow old
    if part.isEmpty then return done
    let stop ← position
    let (between, crossed) ← plainSpaces
    let done := ⟨done.text ++ spaces ++ part, stop, crossed⟩
    if between.isEmpty || (← peek) == '#' || (!inFlow && (← column) < indent) then return done
    plainParts inFlow old indent fuel done between

def plainScalar (inFlow old : Bool) (indent : Nat) (keysAllowed : Bool) : Scan Scanned := do
  plainParts inFlow old indent (← bound) ⟨[], ← position, keysAllowed⟩ []

end Scan

end FlowLint.Yaml
