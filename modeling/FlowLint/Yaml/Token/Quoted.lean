import FlowLint.Yaml.Token.Plain

/-! Scalars between single or double quotes. -/

namespace FlowLint.Yaml

/-- The character that a letter behind a backslash stands for. -/
def escapeLetters : List (Char × Char) := [
  ('0', '\x00'), ('a', '\x07'), ('b', '\x08'), ('t', '\t'), ('\t', '\t'), ('n', '\n'),
  ('v', '\x0b'), ('f', '\x0c'), ('r', '\r'), ('e', '\x1b'), (' ', ' '), ('"', '"'), ('/', '/'),
  ('\\', '\\'), ('N', '\u0085'), ('_', '\u00a0'), ('L', '\u2028'), ('P', '\u2029')]

/-- How many hexadecimal digits follow a letter behind a backslash. -/
def escapeLengths : List (Char × Nat) := [('x', 2), ('u', 4), ('U', 8)]

/-- The value of a hexadecimal digit. -/
def hexValue? (c : Char) : Option Nat :=
  let n := c.toNat
  if 0x30 ≤ n && n ≤ 0x39 then some (n - 0x30)
  else if 0x41 ≤ n && n ≤ 0x46 then some (n - 0x37)
  else if 0x61 ≤ n && n ≤ 0x66 then some (n - 0x57)
  else none

/-- A character that has a meaning of its own inside quotes. -/
def isQuotedSpecial (c : Char) : Bool := isGap c || c == '\'' || c == '"' || c == '\\'

namespace Scan

/-- Reads `n` hexadecimal digits as a number, of which `done` has been read; `wanted` is the problem
that any other character is. -/
def hexNumber (task : Task) (start : Position) (wanted : Char → Problem) (n : Nat) : Scan Nat := do
  let rec value (place : Position) : Nat → Nat → Nat → Scan Nat
    | 0, _, v => return v
    | left + 1, k, v => do
      let c ← peekAt k
      match hexValue? c with
      | some d => value place left (k + 1) (16 * v + d)
      | none => throw (.during task start (wanted c) place)
  let v ← value (← position) n 0 0
  return v

/-- Reads line ends and the blanks around them inside quotes. -/
def quotedBreaks (start : Position) : Nat → List Char → Scan (List Char)
  | 0, breaks => return breaks
  | fuel + 1, breaks => do
    if ← seesSeparator then failHere .quotedScalar start .documentSeparator
    skipWhile fun c => c == ' ' || c == '\t'
    if isBreak (← peek) then
      let b ← lineBreak
      quotedBreaks start fuel (breaks ++ b)
    else return breaks

/-- Reads what follows a backslash between double quotes. -/
def escape (start : Position) : Scan (List Char) := do
  let c ← peek
  match escapeLetters.lookup c, escapeLengths.lookup c with
  | some d, _ =>
    skip 1
    return [d]
  | none, some n =>
    skip 1
    let code ← hexNumber .doubleQuoted start (.wantedHexDigits n) n
    if 0x110000 ≤ code then throw (.codePoint code)
    skip n
    return [Char.ofNat code]
  | none, none =>
    if isBreak c then
      let _ ← lineBreak
      quotedBreaks start (← bound) []
    else failHere .doubleQuoted start (.unknownEscape c)

/-- Reads text inside quotes up to a gap or the closing quote. -/
def quotedRun (double : Bool) (start : Position) : Nat → List Char → Scan (List Char)
  | 0, done => return done
  | fuel + 1, done => do
    let run ← takeWhile (!isQuotedSpecial ·)
    let done := done ++ run
    let c ← peek
    if ← (pure (!double && c == '\'') <&&> (return (← peekAt 1) == '\'')) then
      skip 2
      quotedRun double start fuel (done ++ ['\''])
    else if (double && c == '\'') || (!double && (c == '"' || c == '\\')) then
      skip 1
      quotedRun double start fuel (done ++ [c])
    else if double && c == '\\' then
      skip 1
      let e ← escape start
      quotedRun double start fuel (done ++ e)
    else return done

/-- Reads a gap inside quotes: blanks stay, line ends are folded. -/
def quotedGap (start : Position) : Scan (List Char) := do
  let blanks ← takeWhile fun c => c == ' ' || c == '\t'
  let c ← peek
  if c == endMark then failHere .quotedScalar start .endOfText
  else if isBreak c then
    let first ← lineBreak
    let breaks ← quotedBreaks start (← bound) []
    return foldBreaks first breaks
  else return blanks

/-- Reads runs and gaps up to the closing quote. -/
def quotedRest (quote : Char) (start : Position) : Nat → List Char → Scan (List Char)
  | 0, done => return done
  | fuel + 1, done => do
    if (← peek) == quote then return done
    let gap ← quotedGap start
    let run ← quotedRun (quote == '"') start (← bound) []
    quotedRest quote start fuel (done ++ gap ++ run)

def quotedScalar (quote : Char) : Scan Scanned := do
  let start ← position
  skip 1
  let first ← quotedRun (quote == '"') start (← bound) []
  let text ← quotedRest quote start (← bound) first
  skip 1
  return ⟨text, ← position, false⟩

end Scan

end FlowLint.Yaml
