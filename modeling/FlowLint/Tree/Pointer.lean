import FlowLint.Text.Pieces
import FlowLint.Tree.Node

/-! Pointers: texts that name the nodes of a tree. The pointer of the root is empty; that of a child
adds a slash and the child's key or number, in which a tilde and a slash are written `~0` and `~1`.
-/

namespace FlowLint.Tree.Pointer

/-- A character of a segment as it is written. -/
def escapeChar (c : Char) : List Char :=
  if c == '~' then ['~', '0'] else if c == '/' then ['~', '1'] else [c]

def escape (segment : String) : String := .ofList (segment.toList.flatMap escapeChar)

def child (base segment : String) : String := base ++ "/" ++ escape segment

/-- The pointer of an item of a sequence. -/
def item (base : String) (index : Nat) : String := child base (toString index)

def descendant (base : String) (segments : List String) : String := segments.foldl child base

/-- Slashes written `~1` are read. -/
def readSlashes : List Char → List Char
  | [] => []
  | '~' :: '1' :: s => '/' :: readSlashes s
  | c :: s => c :: readSlashes s

/-- Tildes written `~0` are read. -/
def readTildes : List Char → List Char
  | [] => []
  | '~' :: '0' :: s => '~' :: readTildes s
  | c :: s => c :: readTildes s

/-- A segment that was written as `s`. -/
def unescape (s : List Char) : String := .ofList (readTildes (readSlashes s))

/-- The segments of a pointer. What stands before its first slash is passed over. -/
def segments (pointer : String) : List String :=
  (Text.pieces (· == '/') pointer.toList).tail.map unescape

/-- The part of a pointer before its last slash; nothing if it has none. -/
def parent (pointer : String) : String :=
  let s := pointer.toList
  let last := Text.afterLast '/' s
  .ofList (s.take (s.length - last.length - 1))

/-- The part of a pointer behind its last slash, as it is written. -/
def lastSegment (pointer : String) : String := .ofList (Text.afterLast '/' pointer.toList)

/-- The pointer without its last segments, one after the other, itself first, as long as it holds a
slash. -/
def ancestors : Nat → String → List String
  | 0, _ => []
  | fuel + 1, pointer =>
    if pointer.toList.contains '/' then pointer :: ancestors fuel (parent pointer) else []

theorem readTildes_readSlashes_escape (s : List Char) :
    readTildes (readSlashes (s.flatMap escapeChar)) = s := by
  have slashes : readSlashes (s.flatMap escapeChar) =
      s.flatMap fun c => if c = '~' then ['~', '0'] else [c] := by
    induction s with
    | nil => rfl
    | cons c s ih =>
      by_cases h : c = '~'
      · subst h; simp [escapeChar, readSlashes, ih]
      · by_cases h' : c = '/'
        · subst h'; simp [escapeChar, readSlashes, ih]
        · simp [escapeChar, readSlashes, ih, h, h']
  rw [slashes]
  clear slashes
  induction s with
  | nil => rfl
  | cons c s ih =>
    by_cases h : c = '~'
    · subst h; simp [readTildes, ih]
    · simp [readTildes, ih, h]

/-- Reading a segment undoes writing it. -/
theorem unescape_escape (s : String) : unescape (escape s).toList = s := by
  simp [unescape, escape, readTildes_readSlashes_escape]

example : child "/jobs" "a/b~" = "/jobs/a~1b~0" := by decide +kernel
example : segments "/a~1b//~01" = ["a/b", "", "~1"] := by decide +kernel

end FlowLint.Tree.Pointer
