import FlowLint.Text.Integer

/-! The tree of a document: scalars, sequences and mappings, each with the way it was written and
the place where it begins. The order of keys is that of the text. -/

namespace FlowLint.Tree

/-- How a node is written. -/
inductive Style where
  | plain
  | quoted
  | blockLiteral
  | blockFolded
  | flow
  /-- The node stands for another one, through an alias. -/
  | alias
  deriving DecidableEq, Repr, Inhabited

def Style.name : Style → String
  | .plain => "plain"
  | .quoted => "quoted"
  | .blockLiteral => "block-literal"
  | .blockFolded => "block-folded"
  | .flow => "flow"
  | .alias => "anchor-ref"

def Style.ofName? (name : String) : Option Style :=
  [.plain, .quoted, .blockLiteral, .blockFolded, .flow, .alias].find? (·.name == name)

/-- How a node is written and where it begins; lines and columns count from 1. The anchor of an
alias is the name that it refers to. -/
structure Origin where
  style : Style := .plain
  anchor : Option String := none
  line : Nat := 0
  column : Nat := 0
  deriving DecidableEq, Repr, Inhabited

/-- A text with the line where it ends. -/
structure Scalar where
  value : String
  origin : Origin := {}
  endLine : Nat := 0
  deriving DecidableEq, Repr, Inhabited

/-- A node of a tree. -/
inductive Node where
  | scalar (s : Scalar)
  | sequence (origin : Origin) (items : List Node)
  | mapping (origin : Origin) (entries : List (Scalar × Node))
  deriving Repr, BEq, Inhabited

/-- A mapping node by itself. -/
structure Mapping where
  origin : Origin
  entries : List (Scalar × Node)
  deriving Repr, Inhabited

namespace Scalar

/-- Texts that say that there is no value. -/
def nullTexts : List String := ["", "~", "null", "Null", "NULL"]

def trueTexts : List String := ["true", "True", "TRUE", "yes", "Yes", "YES", "on", "On", "ON"]

/-- A scalar that stands for the absence of a value; only a plain one can. -/
def isNull (s : Scalar) : Bool := s.origin.style == .plain && nullTexts.contains s.value

/-- A scalar written as indented lines. -/
def isBlock (s : Scalar) : Bool :=
  s.origin.style == .blockLiteral || s.origin.style == .blockFolded

/-- The scalar says yes. -/
def asBool (s : Scalar) : Bool := trueTexts.contains s.value

def asInt? (s : Scalar) : Option Int := (Text.Integer.read (Text.trim s.value)).toOption

end Scalar

namespace Mapping

def keys (m : Mapping) : List String := m.entries.map (·.1.value)

def entry? (m : Mapping) (key : String) : Option (Scalar × Node) :=
  m.entries.find? (·.1.value == key)

def get? (m : Mapping) (key : String) : Option Node := (m.entry? key).map (·.2)

def keyNode? (m : Mapping) (key : String) : Option Scalar := (m.entry? key).map (·.1)

def hasKey (m : Mapping) (key : String) : Bool := m.entries.any (·.1.value == key)

end Mapping

namespace Node

/-- How the node is written and where it begins. -/
def origin : Node → Origin
  | .scalar s => s.origin
  | .sequence o _ => o
  | .mapping o _ => o

/-- The node, written and placed as `o` says. -/
def withOrigin (o : Origin) : Node → Node
  | .scalar s => .scalar { s with origin := o }
  | .sequence _ items => .sequence o items
  | .mapping _ entries => .mapping o entries

/-- A mapping without entries that stands nowhere. -/
def empty : Node := .mapping {} []

def scalar? : Node → Option Scalar
  | .scalar s => some s
  | _ => none

def mapping? : Node → Option Mapping
  | .mapping o entries => some ⟨o, entries⟩
  | _ => none

@[simp] theorem origin_withOrigin (o : Origin) (n : Node) : (n.withOrigin o).origin = o := by
  cases n <;> rfl

@[simp] theorem withOrigin_origin (n : Node) : n.withOrigin n.origin = n := by cases n <;> rfl

end Node

def valued? (node : Option Node) : Option Scalar :=
  match node with
  | some (.scalar s) => if s.isNull then none else some s
  | _ => none

/-- The text of the scalar at a node, if there is one and it has a value. -/
def text? (node : Option Node) : Option String := (valued? node).map (·.value)

end FlowLint.Tree
