import FlowLint.Pattern.Matcher
import FlowLint.Text.Pieces

/-! Expressions: the parts of a text between `$\x7b\x7b` and the next `\x7d\x7d`. `pieces` cuts a
text into expressions and the characters between them, from the left. -/

namespace FlowLint.Expression

/-- What begins and what ends an expression. -/
def opening : List Char := ['$', '\x7b', '\x7b']
def closing : List Char := ['\x7d', '\x7d']

/-- A part of a text. -/
inductive Piece where
  | char (c : Char)
  /-- An expression, without what begins and ends it. -/
  | expression (inner : List Char)
  deriving DecidableEq, Repr

/-- The text before the first `\x7d\x7d`. -/
def untilClosing : List Char → Option (List Char)
  | [] => none
  | c :: s =>
    if closing.isPrefixOf (c :: s) then some [] else (untilClosing s).map (c :: ·)

/-- The text inside the expression that a text begins with. -/
def inner? (s : List Char) : Option (List Char) :=
  if opening.isPrefixOf s then untilClosing (s.drop opening.length) else none

/-- The pieces of a text; the first argument counts characters that belong to an expression already
found. -/
def piecesFrom : Nat → List Char → List Piece
  | _, [] => []
  | k + 1, _ :: s => piecesFrom k s
  | 0, c :: s =>
    match inner? (c :: s) with
    | some inner => .expression inner :: piecesFrom (inner.length + 4) s
    | none => .char c :: piecesFrom 0 s

def pieces (s : List Char) : List Piece := piecesFrom 0 s

/-- The expressions of a text, without what begins and ends them. -/
def inners (s : List Char) : List (List Char) :=
  (pieces s).filterMap fun
    | .expression inner => some inner
    | .char _ => none

def written (inner : List Char) : String := .ofList (opening ++ inner ++ closing)

/-- The text with a space in the place of each expression. -/
def blanked (s : List Char) : List Char :=
  (pieces s).map fun
    | .expression _ => ' '
    | .char c => c

/-- The name of the context that holds secrets, before an access to it. -/
def secretContext : Pattern :=
  .sequence [.wordEdge, .text "secrets", .many .blank, .choice [.char '.', .char '[']]

/-- The expressions of a text that read a secret, as they are written. -/
def secrets (text : String) : List String :=
  ((inners text.toList).filter secretContext.occursIn).map written

/-- The text is an expression from its beginning to its end, blanks around it aside. -/
def isWrapped (text : String) : Bool :=
  let s := Text.trimChars text.toList
  opening.isPrefixOf s && closing.isSuffixOf s

def isVariableChar (c : Char) : Bool :=
  ('0' ≤ c && c ≤ '9') || ('A' ≤ c && c ≤ 'Z') || ('a' ≤ c && c ≤ 'z') || c == '_' || c == '-'

/-- What follows `start`, if the text begins with it. -/
def after? (start s : List Char) : Option (List Char) :=
  if start.isPrefixOf s then some (s.drop start.length) else none

/-- The matrix variable that a text stands for, if it is an expression with nothing else in it. -/
def matrixVariable? (text : String) : Option String := do
  let s ← after? opening (Text.trimChars text.toList)
  let s ← after? "matrix.".toList (Text.dropBlanks s)
  let name := s.takeWhile isVariableChar
  if name.isEmpty || Text.dropBlanks (s.dropWhile isVariableChar) != closing then none
  else some (.ofList name)

example : inners "a $\x7b\x7b x \x7d\x7d\x7d$\x7b\x7by\x7d\x7d".toList =
    [[' ', 'x', ' '], ['y']] := by
  decide +kernel
example : secrets "$\x7b\x7b secrets.A \x7d\x7d $\x7b\x7b mysecrets.B \x7d\x7d" =
    ["$\x7b\x7b secrets.A \x7d\x7d"] := by decide +kernel
example : matrixVariable? " $\x7b\x7b matrix.os-2 \x7d\x7d" = some "os-2" := by decide +kernel

end FlowLint.Expression
