import FlowLint.Text.Lines
import FlowLint.Tree.Pointer

/-! Documents: a tree with its text. `Node.walk` lists the nodes with their pointers, each node
before its children; a document keeps the pointers in that order, and the lines of its text. -/

namespace FlowLint.Tree

mutual

/-- The nodes of a tree with their pointers, in the order of the text. -/
def Node.walk (pointer : String) : Node → List (String × Node)
  | .scalar s => [(pointer, .scalar s)]
  | .sequence o items => (pointer, .sequence o items) :: walkItems pointer 0 items
  | .mapping o entries => (pointer, .mapping o entries) :: walkEntries pointer entries

/-- The nodes below the items of a sequence, which are numbered from `first` on. -/
def walkItems (pointer : String) (first : Nat) : List Node → List (String × Node)
  | [] => []
  | n :: rest => n.walk (Pointer.item pointer first) ++ walkItems pointer (first + 1) rest

/-- The nodes below the values of a mapping. -/
def walkEntries (pointer : String) : List (Scalar × Node) → List (String × Node)
  | [] => []
  | (key, n) :: rest => n.walk (Pointer.child pointer key.value) ++ walkEntries pointer rest

end

def isNumeral (s : String) : Bool := !s.isEmpty && s.toList.all Text.isDigit

/-- The child of a node with the given key or number. A segment of digits that is no number is an
error. -/
def Node.child? (segment : String) : Node → Except Text.Integer.Fault (Option Node)
  | .mapping o entries => .ok (Mapping.get? ⟨o, entries⟩ segment)
  | .sequence _ items =>
    if isNumeral segment then (Text.Integer.read segment).map fun i => items[i.toNat]?
    else .ok none
  | .scalar _ => .ok none

def Node.descend : List String → Node → Except Text.Integer.Fault (Option Node)
  | [], n => .ok (some n)
  | segment :: rest, n =>
    match n.child? segment with
    | .error fault => .error fault
    | .ok none => .ok none
    | .ok (some next) => next.descend rest

/-- A tree and the text that it was read from. -/
structure Document where
  root : Node
  text : String
  /-- The pointers of all nodes in the order of the text. -/
  pointers : List String := (root.walk "").map (·.1)
  lines : List String := Text.lines text
  pointers_eq : pointers = (root.walk "").map (·.1) := by rfl
  lines_eq : lines = Text.lines text := by rfl

def Document.ofRoot (root : Node) (text : String) : Document := { root, text }

/-- The comment of a line: what follows the first number sign at its beginning or behind a blank.
The flag tells that the text stands at such a place. -/
def commentIn : Bool → List Char → Option (List Char)
  | _, [] => none
  | atGap, c :: s => if c == '#' && atGap then some s else commentIn (Text.isBlank c) s

namespace Document

def nodeAt (doc : Document) (pointer : String) : Except Text.Integer.Fault (Option Node) :=
  if pointer.isEmpty then .ok (some doc.root) else doc.root.descend (Pointer.segments pointer)

/-- The place of a node in the order of the text: a table from pointers to places, in which a later
entry for the same pointer takes the place of an earlier one. -/
def index? (doc : Document) (pointer : String) : Option Nat :=
  doc.pointers.zipIdx.reverse.lookup pointer

/-- The place of a node in the order of the text, or that of its nearest ancestor. -/
def orderOf (doc : Document) (pointer : String) : Nat :=
  ((Pointer.ancestors (pointer.length + 1) pointer).findSome? doc.index?).getD 0

def line? (doc : Document) (line : Nat) : Option String :=
  if line == 0 then none else doc.lines[line - 1]?

def commentAt (doc : Document) (line : Nat) : Option String :=
  (doc.line? line).bind fun l =>
    (commentIn true l.toList).map fun s => .ofList (Text.trimChars s)

def isCommentLine (doc : Document) (line : Nat) : Bool :=
  (doc.line? line).any fun l => (Text.dropBlanks l.toList).head? == some '#'

/-- The comment of a line, or of the line above if that holds nothing else, satisfies `p`. -/
def hasMarker (doc : Document) (line : Nat) (p : String → Bool) : Bool :=
  (doc.commentAt line).any p ||
    ((doc.line? line).isSome && doc.isCommentLine (line - 1) && (doc.commentAt (line - 1)).any p)

theorem lines_congr {doc doc' : Document} (same : doc.text = doc'.text) :
    doc.lines = doc'.lines := by
  rw [doc.lines_eq, doc'.lines_eq, same]

/-- What the comments say depends on the text alone. -/
theorem hasMarker_congr {doc doc' : Document} (same : doc.text = doc'.text) (line : Nat)
    (p : String → Bool) : doc.hasMarker line p = doc'.hasMarker line p := by
  simp only [hasMarker, commentAt, isCommentLine, line?, lines_congr same]

end Document

end FlowLint.Tree
