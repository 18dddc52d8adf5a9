import FlowLint.Proofs.Lines
import FlowLint.Proofs.Location
import FlowLint.Proofs.PartReading

/-! A document with one more entry at the end of its root and more lines at the end of its text.
What the document had keeps its place: the lines of the text, the nodes and their pointers, and what
the keys of the root lead to, but for the new one. -/

namespace FlowLint

open FlowLint.Tree (Node Scalar Mapping Document Origin Pointer.child Pointer.descendant)

namespace Tree

/-- The node with one more entry behind the others, if it is a mapping. -/
def Node.addEntry (n : Node) (key : Scalar) (v : Node) : Node :=
  match n with
  | .mapping o entries => .mapping o (entries ++ [(key, v)])
  | n => n

/-- The document with one more entry at the end of the root and more text. -/
def Document.extend (doc : Document) (key : Scalar) (v : Node) (more : String) : Document :=
  .ofRoot (doc.root.addEntry key v) (doc.text ++ more)

namespace Mapping

variable {o : Origin} {entries : List (Scalar × Node)} {key : Scalar} {v : Node}

theorem entry?_append {other : String} (differ : other ≠ key.value) :
    entry? ⟨o, entries ++ [(key, v)]⟩ other = entry? ⟨o, entries⟩ other := by
  have passed : (key.value == other) = false := by simpa using Ne.symm differ
  rw [ entry?, entry?, List.find?_append, List.find?_cons, passed]
  simp

theorem get?_append {other : String} (differ : other ≠ key.value) :
    get? ⟨o, entries ++ [(key, v)]⟩ other = get? ⟨o, entries⟩ other := by
  rw [get?, get?, entry?_append differ]

end Mapping

namespace Document

variable {doc : Document} {o : Origin} {entries : List (Scalar × Node)} {key : Scalar} {v : Node}
  {more : String}

theorem lines_extend (ended : Text.EndsLine doc.text) :
    (doc.extend key v more).lines = doc.lines ++ Text.lines more := by
  rw [doc.lines_eq]
  exact Text.lines_append ended more

theorem root_extend (root : doc.root = .mapping o entries) :
    (doc.extend key v more).root = .mapping o (entries ++ [(key, v)]) := by
  change doc.root.addEntry key v = _
  rw [root]
  rfl

theorem walk_extend (root : doc.root = .mapping o entries) :
    (doc.extend key v more).root.walk "" =
      ("", .mapping o (entries ++ [(key, v)])) ::
        ((doc.root.walk "").tail ++ v.walk (Pointer.child "" key.value)) := by
  have children : (Node.mapping o (entries ++ [(key, v)])).children =
      (Node.mapping o entries).children ++ [(key.value, v)] := by
    simp [Node.children]
  rw [root_extend root, root, Node.walk_eq, Node.walk_eq (.mapping o entries), children,
    List.flatMap_append, List.flatMap_singleton, List.tail_cons]

theorem pointers_extend (root : doc.root = .mapping o entries) :
    (doc.extend key v more).pointers =
      doc.pointers ++ (v.walk (Pointer.child "" key.value)).map (·.1) := by
  rw [Document.pointers_eq, Document.pointers_eq, walk_extend root, root, Node.walk_eq]
  simp

/-- The table of places only grows by pointers below the new key. -/
theorem index?_extend (root : doc.root = .mapping o entries) {path : List String}
    (elsewhere : path.head? ≠ some key.value) :
    (doc.extend key v more).index? (Pointer.descendant "" path) =
      doc.index? (Pointer.descendant "" path) := by
  rw [index?, index?, pointers_extend root, List.zipIdx_append, List.reverse_append,
    List.lookup_append]
  have absent : (((v.walk (Pointer.child "" key.value)).map (·.1)).zipIdx
      (0 + doc.pointers.length)).reverse.lookup (Pointer.descendant "" path) = none := by
    rw [List.lookup_eq_none_iff]
    intro x hx
    obtain ⟨⟨q, n⟩, hq, same⟩ := List.mem_map.mp
      (List.fst_mem_of_mem_zipIdx (List.mem_reverse.mp hx))
    obtain ⟨below, -, rfl⟩ := Node.mem_walk_iff.mp hq
    rw [← same, bne_iff_ne]
    intro equal
    have path_eq : path = key.value :: below := Pointer.descendant_injective
      (show Pointer.descendant "" path = Pointer.descendant "" (key.value :: below) from equal)
    exact elsewhere (by rw [path_eq]; rfl)
  rw [absent, Option.none_or]

theorem findSome?_ancestors_extend (root : doc.root = .mapping o entries) {fuel : Nat}
    {path : List String} (elsewhere : path.head? ≠ some key.value) :
    (Pointer.ancestors fuel (Pointer.descendant "" path)).findSome? (doc.extend key v more).index? =
      (Pointer.ancestors fuel (Pointer.descendant "" path)).findSome? doc.index? := by
  induction fuel generalizing path with
  | zero => rfl
  | succ fuel ih =>
    rcases List.eq_nil_or_concat path with rfl | ⟨upper, last, rfl⟩
    · rfl
    · have above : upper.head? ≠ some key.value := by
        cases upper with
        | nil => exact nofun
        | cons segment upper => exact elsewhere
      have here : (doc.extend key v more).index? _ = _ := index?_extend root elsewhere
      rw [List.concat_eq_append, Pointer.descendant_concat] at here ⊢
      rw [Pointer.ancestors_child, List.findSome?_cons, List.findSome?_cons, here, ih above]

/-- What does not lie below the new key keeps its place in the order of the text. -/
theorem orderOf_extend (root : doc.root = .mapping o entries) {path : List String}
    (elsewhere : path.head? ≠ some key.value) :
    (doc.extend key v more).orderOf (Pointer.descendant "" path) =
      doc.orderOf (Pointer.descendant "" path) := by
  rw [orderOf, orderOf, findSome?_ancestors_extend root elsewhere]

theorem line?_extend (ended : Text.EndsLine doc.text) {line : Nat} (old : line ≤ doc.lines.length) :
    (doc.extend key v more).line? line = doc.line? line := by
  rw [line?, line?, lines_extend ended]
  by_cases first : line = 0
  · simp [first]
  · have before : line - 1 < doc.lines.length := by omega
    rw [List.getElem?_append_left before]

theorem commentAt_extend (ended : Text.EndsLine doc.text) {line : Nat}
    (old : line ≤ doc.lines.length) :
    (doc.extend key v more).commentAt line = doc.commentAt line := by
  rw [commentAt, commentAt, line?_extend ended old]

/-- The lines of the document say what they said. -/
theorem hasMarker_extend (ended : Text.EndsLine doc.text) {line : Nat}
    (old : line ≤ doc.lines.length) (p : String → Bool) :
    (doc.extend key v more).hasMarker line p = doc.hasMarker line p := by
  have above : line - 1 ≤ doc.lines.length := by omega
  simp only [hasMarker, isCommentLine, commentAt_extend ended old, commentAt_extend ended above,
    line?_extend ended old, line?_extend ended above]

end Document

end Tree

open FlowLint.Tree

namespace Workflow

variable {doc : Document} {o : Origin} {entries : List (Scalar × Node)} {key : Scalar} {v : Node}
  {more : String}

/-- References to secrets that no rule asks for: they belong to no job and to no environment. -/
def Stray (r : SecretRef) : Prop := r.scope = .other ∧ r.jobId = none

theorem ofSegments_foreign {key : String} (foreign : key ∉ rootKeys) (path : List String) :
    SecretScope.ofSegments (key :: path) = (.other, none) := by
  have not_env : key ≠ "env" := fun same => foreign (same ▸ by decide)
  have not_jobs : key ≠ "jobs" := fun same => foreign (same ▸ by decide)
  unfold SecretScope.ofSegments
  split
  next same => exact absurd (List.cons.inj same).1 not_env
  next same => exact absurd (List.cons.inj same).1 not_jobs
  · rfl

theorem secretsBelow_extend (root : doc.root = .mapping o entries) :
    secretsBelow (doc.extend key v more).root "" =
      secretsBelow doc.root "" ++ secretsBelow v (Pointer.child "" key.value) := by
  rw [secretsBelow, secretsBelow, secretsBelow, Document.walk_extend root, root, Node.walk_eq]
  simp only [List.tail_cons, List.flatMap_cons, List.flatMap_append, List.nil_append]

theorem ofRoot_extend (v : Node) (more : String) (root : doc.root = .mapping o entries)
    (foreign : key.value ∉ rootKeys) :
    ∃ strays, SecretRef.ofRoot (doc.extend key v more).root = SecretRef.ofRoot doc.root ++ strays ∧
      ∀ r ∈ strays, Stray r := by
  rw [SecretRef.ofRoot, SecretRef.ofRoot, secretsBelow_extend root, List.map_append]
  refine ⟨_, rfl, fun r hr => ?_⟩
  obtain ⟨⟨p, expression, line⟩, hp, rfl⟩ := List.mem_map.mp hr
  obtain ⟨path, -, -, place, -⟩ := mem_secretsBelow hp
  have below : p = Pointer.descendant "" (key.value :: path) := place
  simp only [Stray, below, Pointer.segments_descendant, ofSegments_foreign foreign, and_self]

/-- All parts of the workflow but the keys without a meaning and the secrets are the same. -/
theorem ofDocument_extend (v : Node) (more : String) (root : doc.root = .mapping o entries)
    (foreign : key.value ∉ rootKeys) :
    ∃ extras strays, ofDocument (doc.extend key v more) =
        (ofDocument doc).withSource (doc.extend key v more) extras
          ((ofDocument doc).secretRefs ++ strays) ∧ ∀ r ∈ strays, Stray r := by
  obtain ⟨strays, secrets, stray⟩ := ofRoot_extend v more root foreign
  have parts : ∀ part ∈ rootKeys, Mapping.get? ⟨o, entries ++ [(key, v)]⟩ part =
      Mapping.get? ⟨o, entries⟩ part := by
    intro part known
    exact Mapping.get?_append fun same => foreign (same ▸ known)
  refine ⟨(ofDocument (doc.extend key v more)).extras, strays, ?_, stray⟩
  have there : (doc.extend key v more).root.mapping? = some ⟨o, entries ++ [(key, v)]⟩ := by
    rw [Document.root_extend root]
    rfl
  have before : doc.root.mapping? = some ⟨o, entries⟩ := by
    rw [root]
    rfl
  simp only [ofDocument, there, before, withSource, secrets, scalarAt, mappingAt]
  rw [parts "name" (by decide), parts "on" (by decide),
    parts "permissions" (by decide), parts "concurrency" (by decide),
    parts "env" (by decide), parts "jobs" (by decide)]

theorem Shows.elsewhere (root : doc.root = .mapping o entries)
    (new : key.value ∉ Mapping.keys ⟨o, entries⟩) {p : String} (h : (ofDocument doc).Shows p) :
    ∃ path, p = Pointer.descendant "" path ∧ path.head? ≠ some key.value := by
  obtain ⟨path, n, hn, rfl⟩ := Document.mem_pointers_iff.mp h.mem_pointers
  refine ⟨path, rfl, fun first => new ?_⟩
  cases hn with
  | here => cases first
  | down hc _ =>
    rw [root] at hc
    obtain ⟨k, hk, same⟩ := Node.mem_children_mapping.mp hc
    rw [List.head?_cons, Option.some.injEq] at first
    exact List.mem_map.mpr ⟨_, hk, same.trans first⟩

/-- No rule places anything below a key of the root that has no meaning and is not there. -/
theorem Place.elsewhere (root : doc.root = .mapping o entries)
    (new : key.value ∉ Mapping.keys ⟨o, entries⟩) (foreign : key.value ∉ rootKeys) {p : String}
    (h : (ofDocument doc).Place p) :
    ∃ path, p = Pointer.descendant "" path ∧ path.head? ≠ some key.value := by
  cases h with
  | shown h => exact h.elsewhere root new
  | child k h known =>
    obtain ⟨path, rfl, elsewhere⟩ := h.elsewhere root new
    refine ⟨path ++ [k], (Pointer.descendant_concat ..).symm, fun first => ?_⟩
    cases path with
    | nil =>
      rw [List.nil_append, List.head?_cons, Option.some.injEq] at first
      exact foreign (first ▸ known rfl)
    | cons segment path => exact elsewhere first

end Workflow

end FlowLint
