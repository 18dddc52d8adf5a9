import FlowLint.Proofs.Place
import FlowLint.Proofs.Walk

/-! Bare trees. What a rule about security sees of a tree is the values, their lines, which scalars
are no values and, if it asks for that, which scalars are blocks. `Node.bare` keeps just this, and
the parts of a workflow are found in a bare tree as they are found in the tree itself
(`Workflow.ofDocument_bare`). -/

namespace FlowLint

namespace Tree

/-- The scalar without the way it is written; it stays no value if it is none, and a block if it is
one and `blocks` is set. -/
def Scalar.bare (blocks : Bool) (s : Scalar) : Scalar where
  value := s.value
  origin := {
    style := if s.isNull then .plain else if blocks && s.isBlock then .blockLiteral else .quoted
    line := s.origin.line }

/-- A key with its line. -/
def Scalar.bareKey (s : Scalar) : Scalar where
  value := s.value
  origin := { line := s.origin.line }

mutual

/-- The tree without the ways in which its nodes are written. -/
def Node.bare (blocks : Bool) : Node → Node
  | .scalar s => .scalar (s.bare blocks)
  | .sequence _ items => .sequence {} (bareItems blocks items)
  | .mapping _ entries => .mapping {} (bareEntries blocks entries)

@[inherit_doc Node.bare] def bareItems (blocks : Bool) : List Node → List Node
  | [] => []
  | n :: rest => n.bare blocks :: bareItems blocks rest

@[inherit_doc Node.bare] def bareEntries (blocks : Bool) :
    List (Scalar × Node) → List (Scalar × Node)
  | [] => []
  | (key, n) :: rest => (key.bareKey, n.bare blocks) :: bareEntries blocks rest

end

variable {blocks : Bool}

theorem bareItems_eq (items : List Node) :
    bareItems blocks items = items.map (Node.bare blocks) := by
  induction items with
  | nil => rfl
  | cons n rest ih => rw [bareItems, ih, List.map_cons]

theorem bareEntries_eq (entries : List (Scalar × Node)) :
    bareEntries blocks entries = entries.map fun e => (e.1.bareKey, e.2.bare blocks) := by
  induction entries with
  | nil => rfl
  | cons e rest ih => rw [bareEntries, ih, List.map_cons]

namespace Scalar

variable (s : Scalar)

@[simp] theorem value_bare : (s.bare blocks).value = s.value := rfl

@[simp] theorem line_bare : (s.bare blocks).origin.line = s.origin.line := rfl

@[simp] theorem value_bareKey : s.bareKey.value = s.value := rfl

@[simp] theorem line_bareKey : s.bareKey.origin.line = s.origin.line := rfl

@[simp] theorem asInt?_bare : (s.bare blocks).asInt? = s.asInt? := rfl

theorem isBlock_of_isNull {s : Scalar} (h : s.isNull = true) : s.isBlock = false := by
  simp only [isNull, Bool.and_eq_true, beq_iff_eq] at h
  simp [isBlock, h.1]

theorem style_bare : ((s.bare blocks).origin.style == .plain) = s.isNull := by
  simp only [bare]
  cases s.isNull
  · cases blocks && s.isBlock <;> rfl
  · rfl

@[simp] theorem isNull_bare : (s.bare blocks).isNull = s.isNull := by
  change ((s.bare blocks).origin.style == .plain && nullTexts.contains s.value) = s.isNull
  rw [style_bare, isNull, Bool.and_assoc, Bool.and_self]

@[simp] theorem isBlock_bare : (s.bare true).isBlock = s.isBlock := by
  have kept : (s.bare true).isBlock = (!s.isNull && s.isBlock) := by
    change ((s.bare true).origin.style == .blockLiteral ||
      (s.bare true).origin.style == .blockFolded) = _
    simp only [bare]
    cases s.isNull <;> cases s.isBlock <;> rfl
  rw [kept]
  cases h : s.isNull with
  | false => rfl
  | true => rw [isBlock_of_isNull h]; rfl

end Scalar

/-- A mapping without the ways in which its nodes are written. -/
def Mapping.bare (blocks : Bool) (m : Mapping) : Mapping :=
  ⟨{}, m.entries.map fun e => (e.1.bareKey, e.2.bare blocks)⟩

namespace Node

@[simp] theorem mapping?_bare (n : Node) :
    (n.bare blocks).mapping? = n.mapping?.map (Mapping.bare blocks) := by
  cases n with
  | mapping o entries => simp [bare, mapping?, Mapping.bare, bareEntries_eq]
  | _ => rfl

@[simp] theorem scalar?_bare (n : Node) :
    (n.bare blocks).scalar? = n.scalar?.map (Scalar.bare blocks) := by
  cases n <;> rfl

theorem children_bare (n : Node) :
    (n.bare blocks).children = n.children.map fun c => (c.1, c.2.bare blocks) := by
  cases n with
  | scalar s => rfl
  | sequence o items =>
    simp [bare, children, bareItems_eq, List.zipIdx_map, Function.comp_def]
  | mapping o entries => simp [bare, children, bareEntries_eq, Function.comp_def]

/-- The nodes of a bare tree stand where those of the tree stand. -/
theorem walk_bare (n : Node) (p : String) :
    (n.bare blocks).walk p = (n.walk p).map fun x => (x.1, x.2.bare blocks) := by
  induction n using Node.induct generalizing p with
  | step n ih =>
    rw [walk_eq, walk_eq, children_bare, List.map_cons, List.flatMap_map, List.map_flatMap]
    congr 1
    exact List.flatMap_congr fun c hc => ih c hc _

end Node

namespace Mapping

variable (m : Mapping) (key : String)

theorem entry?_bare : Mapping.entry? (m.bare blocks) key =
    (m.entry? key).map fun e => (e.1.bareKey, e.2.bare blocks) := by
  simp [Mapping.entry?, bare, List.find?_map, Function.comp_def]

@[simp] theorem get?_bare : (m.bare blocks).get? key = (m.get? key).map (Node.bare blocks) := by
  simp [get?, entry?_bare, Function.comp_def]

@[simp] theorem keyNode?_bare :
    (m.bare blocks).keyNode? key = (m.keyNode? key).map Scalar.bareKey := by
  simp [keyNode?, entry?_bare, Function.comp_def]

@[simp] theorem keys_bare : (m.bare blocks).keys = m.keys := by
  simp [keys, bare, Function.comp_def]

end Mapping

@[simp] theorem valued?_bare (n : Option Node) :
    valued? (n.map (Node.bare blocks)) = (valued? n).map (Scalar.bare blocks) := by
  rcases n with _ | n
  · rfl
  · cases n with
    | scalar s =>
      simp only [valued?, Option.map_some, Node.bare, Scalar.isNull_bare]
      split <;> rfl
    | _ => rfl

@[simp] theorem text?_bare (n : Option Node) : text? (n.map (Node.bare blocks)) = text? n := by
  simp [text?, Function.comp_def]

/-- A document with a bare tree; its text is that of the document. -/
def Document.bare (blocks : Bool) (doc : Document) : Document :=
  { root := doc.root.bare blocks, text := doc.text }

namespace Document

variable (doc : Document)

theorem pointers_bare : (doc.bare blocks).pointers = doc.pointers := by
  rw [doc.pointers_eq, (doc.bare blocks).pointers_eq, bare, Node.walk_bare, List.map_map]
  rfl

@[simp] theorem orderOf_bare (p : String) : (doc.bare blocks).orderOf p = doc.orderOf p := by
  have table : (doc.bare blocks).index? = doc.index? := by
    funext q
    rw [index?, index?, pointers_bare]
  rw [orderOf, orderOf, table]

@[simp] theorem hasMarker_bare (line : Nat) (p : String → Bool) :
    (doc.bare blocks).hasMarker line p = doc.hasMarker line p := by
  have text : (doc.bare blocks).text = doc.text := rfl
  exact hasMarker_congr text line p

end Document

end Tree

end FlowLint
