import FlowLint.Settings
import FlowLint.Text.Letter
import FlowLint.Workflow.Expression

/-! Title case: which words of a name should begin with a capital, and the name with those capitals.
-/

namespace FlowLint.Title

/-- Words that have no capital inside a title. -/
def minorWords : List String := [
  "a", "an", "and", "as", "at", "but", "by", "for", "in", "nor", "of", "on", "or", "per", "the",
  "to", "via", "vs", "with"]

/-- A character of paths, versions and other identifiers, which are no words of a title. -/
def isIdentifierChar (c : Char) : Bool := "/._@=:".toList.contains c

/-- A character that may stand before a word. -/
def isLeading (c : Char) : Bool := "([\x7b'\"\x60<".toList.contains c

/-- A word without what stands before it. -/
def stripLeading (word : List Char) : List Char := word.dropWhile isLeading

/-- The words of a title; an expression separates words. -/
def wordsOf (text : List Char) : List (List Char) := Text.words (Expression.blanked text)

/-- The word should have a capital and has none; `inner` tells that it is neither the first nor the
last word. -/
def breaks (policy : Casing) (inner : Bool) (raw : List Char) : Bool :=
  match stripLeading raw with
  | [] => false
  | c :: rest =>
    Text.isLetter c && !(c :: rest).any isIdentifierChar && !Text.isCapital c &&
      !(policy == .standard && inner &&
        minorWords.contains (Text.lower (.ofList (c :: rest))))

/-- The words among those from number `i` on that should have a capital and have none; there are
`count` words in all. -/
def breaksFrom (policy : Casing) (count : Nat) : Nat → List (List Char) → List (List Char)
  | _, [] => []
  | i, word :: rest =>
    let later := breaksFrom policy count (i + 1) rest
    if breaks policy (0 < i && i + 1 < count) word then word :: later else later

/-- The words of a title that should have a capital and have none, as characters. -/
def violationChars (policy : Casing) (text : List Char) : List (List Char) :=
  let words := wordsOf text
  breaksFrom policy words.length 0 words

/-- The words of a title that should have a capital and have none. -/
def violations (policy : Casing) (text : String) : List String :=
  (violationChars policy text.toList).map .ofList

/-- A word with its first letter in upper case; what stands before the letter stays. -/
def capitalize (word : List Char) : List Char :=
  word.takeWhile isLeading ++
    match stripLeading word with
    | [] => []
    | c :: rest => Text.upperChars c ++ rest

def joinSpaces : List (List Char) → List Char
  | [] => []
  | [part] => part
  | part :: rest => part ++ ' ' :: joinSpaces rest

/-- The title with a capital in each part between spaces that is one of the words without one. -/
def suggest (policy : Casing) (text : String) : String :=
  let bad := violationChars policy text.toList
  .ofList (joinSpaces ((Text.pieces (· == ' ') text.toList).map fun part =>
    if bad.contains part then capitalize part else part))

example : violations .standard "build and Test the app" = ["build", "app"] := by decide +kernel
example : suggest .allWords "build (the) v1.2 app" = "Build (The) v1.2 App" := by decide +kernel

end FlowLint.Title
