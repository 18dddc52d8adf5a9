import FlowLint.Yaml.Token.Plain

/-! Block scalars: the indented lines behind `|` or `>`. -/

namespace FlowLint.Yaml

/-- What becomes of the line ends at the end of a block scalar. -/
inductive Chomping where
  | strip
  | clip
  | keep
  deriving DecidableEq, Repr

/-- The line ends of blank lines, and the place behind the last of them. -/
structure BlankLines where
  breaks : List Char
  stop : Position

/-- What stands behind the indicator of a block scalar. -/
structure BlockHeader where
  chomping : Chomping
  indentation : Option Nat

/-- A character that says how a block scalar is chomped. -/
def chomping? (c : Char) : Option Chomping :=
  if c == '+' then some .keep else if c == '-' then some .strip else none

def asciiDigit? (c : Char) : Option Nat :=
  if '0' ≤ c && c ≤ '9' then some (c.toNat - 0x30) else none

namespace Scan

/-- Reads a chomping indicator, if one comes next. -/
def chomping : Scan (Option Chomping) := do
  match chomping? (← peek) with
  | some chomp =>
    skip 1
    return some chomp
  | none => return none

/-- Reads an indentation indicator, if one comes next. -/
def indentation (start : Position) : Scan (Option Nat) := do
  match asciiDigit? (← peek) with
  | some 0 => failHere .blockScalar start .zeroIndentation
  | some n =>
    skip 1
    return some n
  | none => return none

/-- Reads the rest of the line behind a directive or a block indicator: spaces and a comment. -/
def restOfLine (task : Task) (start : Position) : Scan Unit := do
  skipWhile (· == ' ')
  if (← peek) == '#' then skipWhile (!isEnd ·)
  let c ← peek
  if !isEnd c then failHere task start (.wantedLineEnd c)
  let _ ← lineBreak

/-- Reads the line of the block indicator: each of the two further indicators at most once, in
either order. -/
def blockHeader (start : Position) : Scan BlockHeader := do
  let before ← chomping
  let indentation ← indentation start
  let after ← if before.isNone && indentation.isSome then chomping else pure none
  let c ← peek
  if !isEndOrSpace c then failHere .blockScalar start (.wantedIndicator c)
  restOfLine .blockScalar start
  return ⟨(before.or after).getD .clip, indentation⟩

/-- Moves past spaces before the column `indent`. -/
def skipIndent (indent : Nat) : Nat → Scan Unit
  | 0 => return
  | fuel + 1 => do
    if (← column) < indent && (← peek) == ' ' then
      skip 1
      skipIndent indent fuel

/-- Reads blank lines, which hold spaces before the column `indent` alone. -/
def blankLines (indent : Nat) : Nat → BlankLines → Scan BlankLines
  | 0, done => return done
  | fuel + 1, done => do
    skipIndent indent (← bound)
    if isBreak (← peek) then
      let b ← lineBreak
      blankLines indent fuel ⟨done.breaks ++ b, ← position⟩
    else return done

/-- Reads the blank lines before the first line of a scalar without an indentation indicator. The
content is indented as far as the spaces read; if a blank line begins with spaces, nothing may be
indented further than the first of those. -/
def leadingLines : Nat → (first : Option Nat) → (widest : Nat) → BlankLines →
    Scan (Nat × BlankLines)
  | 0, _, widest, done => return (widest, done)
  | fuel + 1, first, widest, done => do
    let c ← peek
    if c == ' ' then
      skip 1
      leadingLines fuel first (max widest (← column)) done
    else if isBreak c then
      let first := first.getD (← column)
      let b ← lineBreak
      leadingLines fuel (some first) widest ⟨done.breaks ++ b, ← position⟩
    else
      match first with
      | some n =>
        if 0 < n && n < widest then
          throw (.grammar (some (.deeperFollowUp, some (← position))) none)
        return (widest, done)
      | none => return (widest, done)

/-- What the scanning of a block scalar ends with: its text but for the line ends at its end, the
last line end, and the blank lines behind it. -/
structure BlockBody where
  text : List Char
  lastBreak : List Char
  after : BlankLines

/-- Reads the lines whose first character stands in the column `indent`. In a folded scalar a line
end becomes a space, or is dropped before blank lines, if neither of the two lines begins with a
blank. -/
def blockLines (folded : Bool) (indent : Nat) (topLevel : Bool) : Nat → BlockBody → Scan BlockBody
  | 0, done => return done
  | fuel + 1, done => do
    let c ← peek
    if !((← column) == indent && c != endMark) then return done
    let solid := c != ' ' && c != '\t'
    let line ← takeWhile (!isEnd ·)
    let lastBreak ← lineBreak
    let after ← blankLines indent (← bound) ⟨[], ← position⟩
    let done : BlockBody := ⟨done.text ++ done.after.breaks ++ line, lastBreak, after⟩
    if ← (return topLevel && (← column) == 0) <&&> seesSeparator then return done
    let next ← peek
    if (← column) == indent && next != endMark then
      let between :=
        if folded && lastBreak == ['\n'] && solid && next != ' ' && next != '\t' then
          (if after.breaks.isEmpty then [' '] else [])
        else lastBreak
      blockLines folded indent topLevel fuel { done with text := done.text ++ between }
    else return done

/-- Reads a block scalar. `minIndent` is the least column of its content; the flag of the result
tells that blank lines behind the content were dropped. -/
def blockScalar (folded : Bool) (minIndent : Nat) : Scan (Scanned × Bool) := do
  let start ← position
  skip 1
  let header ← blockHeader start
  let (indent, before) ← match header.indentation with
    | some n => do
      let indent := max minIndent 1 + n - 1
      pure (indent, ← blankLines indent (← bound) ⟨[], ← position⟩)
    | none => do
      let (widest, before) ← leadingLines (← bound) none 0 ⟨[], ← position⟩
      pure (max minIndent widest, before)
  -- The least column is not changed by an indentation indicator at the top level.
  let topLevel := minIndent == 0 && header.indentation.isNone
  let body ← blockLines folded indent topLevel (← bound) ⟨[], [], before⟩
  let dropped := header.chomping != .keep && !body.after.breaks.isEmpty
  let text := match header.chomping with
    | .strip => body.text
    | .clip => body.text ++ body.lastBreak
    | .keep => body.text ++ body.lastBreak ++ body.after.breaks
  return (⟨text, body.after.stop, true⟩, dropped)

end Scan

end FlowLint.Yaml
