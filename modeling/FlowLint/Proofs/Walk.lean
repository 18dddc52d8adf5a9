import FlowLint.Proofs.Numeral
import FlowLint.Proofs.Pointer
import FlowLint.Tree.Document
import Mathlib.Data.List.Nodup

/-! The nodes of a tree and the paths that lead to them. `Node.At` says which node a path leads to;
`Node.walk` lists exactly the nodes that some path leads to, each under the pointer of its path
(`mem_walk_iff`), the nodes of a subtree next to each other (`At.walk_infix`). If no mapping has a
key twice, different entries of the list have different pointers (`nodup_walk`). -/

namespace FlowLint.Tree

namespace Node

/-- The children of a node, each with the last segment of its pointer. -/
def children : Node → List (String × Node)
  | .scalar _ => []
  | .sequence _ items => items.zipIdx.map fun x => (toString x.2, x.1)
  | .mapping _ entries => entries.map fun e => (e.1.value, e.2)

theorem mem_children_sequence {o : Origin} {items : List Node} {segment : String} {c : Node} :
    (segment, c) ∈ (Node.sequence o items).children ↔
      ∃ i : Nat, items[i]? = some c ∧ toString i = segment := by
  simp only [children, List.mem_map, Prod.mk.injEq, Prod.exists, List.mem_zipIdx_iff_getElem?]
  constructor
  · rintro ⟨n, i, h, same, rfl⟩
    exact ⟨i, h, same⟩
  · rintro ⟨i, h, same⟩
    exact ⟨c, i, h, same, rfl⟩

theorem mem_children_mapping {o : Origin} {entries : List (Scalar × Node)} {segment : String}
    {c : Node} : (segment, c) ∈ (Node.mapping o entries).children ↔
      ∃ key, (key, c) ∈ entries ∧ key.value = segment := by
  simp only [children, List.mem_map, Prod.mk.injEq, Prod.exists]
  constructor
  · rintro ⟨key, n, h, same, rfl⟩
    exact ⟨key, h, same⟩
  · rintro ⟨key, h, same⟩
    exact ⟨key, c, h, same, rfl⟩

theorem forall_children_sequence {P : Node → Prop} {o : Origin} {items : List Node} :
    (∀ c ∈ (Node.sequence o items).children, P c.2) ↔ ∀ n ∈ items, P n := by
  refine ⟨fun h n hn => ?_, fun h c hc => ?_⟩
  · obtain ⟨i, hi⟩ := List.mem_iff_getElem?.mp hn
    exact h (toString i, n) (mem_children_sequence.mpr ⟨i, hi, rfl⟩)
  · obtain ⟨i, hi, -⟩ := mem_children_sequence.mp hc
    exact h _ (List.mem_of_getElem? hi)

theorem forall_children_mapping {P : Node → Prop} {o : Origin} {entries : List (Scalar × Node)} :
    (∀ c ∈ (Node.mapping o entries).children, P c.2) ↔ ∀ e ∈ entries, P e.2 := by
  refine ⟨fun h e he => h _ (mem_children_mapping.mpr ⟨e.1, he, rfl⟩), fun h c hc => ?_⟩
  obtain ⟨key, hkey, -⟩ := mem_children_mapping.mp hc
  exact h _ hkey

/-- Induction over a tree, on the children of a node. -/
@[elab_as_elim]
theorem induct {P : Node → Prop} (step : ∀ n : Node, (∀ c ∈ n.children, P c.2) → P n) (n : Node) :
    P n := by
  refine @Node.rec P (fun items => ∀ n ∈ items, P n) (fun entries => ∀ e ∈ entries, P e.2)
    (fun e => P e.2) (fun s => ?_) (fun o items ih => ?_) (fun o entries ih => ?_)
    (fun _ h => nomatch h) (fun _ _ hn hrest => List.forall_mem_cons.mpr ⟨hn, hrest⟩)
    (fun _ h => nomatch h) (fun _ _ he hrest => List.forall_mem_cons.mpr ⟨he, hrest⟩)
    (fun _ _ h => h) n
  · exact step _ fun c hc => nomatch hc
  · exact step _ (forall_children_sequence.mpr ih)
  · exact step _ (forall_children_mapping.mpr ih)

theorem walkItems_eq (p : String) (first : Nat) (items : List Node) :
    walkItems p first items =
      (items.zipIdx first).flatMap fun x => x.1.walk (Pointer.child p (toString x.2)) := by
  induction items generalizing first with
  | nil => rfl
  | cons n rest ih => rw [walkItems, ih]; rfl

theorem walkEntries_eq (p : String) (entries : List (Scalar × Node)) :
    walkEntries p entries = entries.flatMap fun e => e.2.walk (Pointer.child p e.1.value) := by
  induction entries with
  | nil => rfl
  | cons e rest ih => rw [walkEntries, ih]; rfl

/-- A node stands before the nodes below its children. -/
theorem walk_eq (n : Node) (p : String) :
    n.walk p = (p, n) :: n.children.flatMap fun c => c.2.walk (Pointer.child p c.1) := by
  cases n with
  | scalar s => rw [walk]; rfl
  | sequence o items => rw [walk, walkItems_eq, children, List.flatMap_map]
  | mapping o entries => rw [walk, walkEntries_eq, children, List.flatMap_map]

/-- The path leads from the first node to the second. -/
inductive At : Node → List String → Node → Prop where
  | here (n : Node) : At n [] n
  | down {n c m : Node} {segment : String} {path : List String} :
      (segment, c) ∈ n.children → At c path m → At n (segment :: path) m

theorem At.child {n c : Node} {segment : String} (h : (segment, c) ∈ n.children) :
    n.At [segment] c := .down h (.here c)

theorem At.append {n m k : Node} {path path' : List String} (h : n.At path m)
    (h' : m.At path' k) : n.At (path ++ path') k := by
  induction h with
  | here => exact h'
  | down hc _ ih => exact .down hc (ih h')

/-- What a path leads to is below what each of its beginnings leads to. -/
theorem At.split {n k : Node} {path path' : List String} (h : n.At (path ++ path') k) :
    ∃ m, n.At path m ∧ m.At path' k := by
  induction path generalizing n with
  | nil => exact ⟨n, .here n, h⟩
  | cons segment rest ih =>
    cases h with
    | down hc h =>
      obtain ⟨m, hm, hk⟩ := ih h
      exact ⟨m, .down hc hm, hk⟩

/-- The list of nodes holds exactly those that some path leads to, each with the pointer of the
path. -/
theorem mem_walk_iff {n m : Node} {p q : String} :
    (q, m) ∈ n.walk p ↔ ∃ path, n.At path m ∧ q = Pointer.descendant p path := by
  constructor
  · intro h
    induction n using Node.induct generalizing p with
    | step n ih =>
      rw [walk_eq, List.mem_cons, List.mem_flatMap] at h
      rcases h with h | ⟨c, hc, h⟩
      · cases h
        exact ⟨[], .here _, rfl⟩
      · obtain ⟨path, hm, rfl⟩ := ih c hc h
        exact ⟨c.1 :: path, .down hc hm, rfl⟩
  · rintro ⟨path, h, rfl⟩
    induction h generalizing p with
    | here n =>
      rw [walk_eq]
      exact List.mem_cons_self
    | down hc _ ih =>
      rw [walk_eq, List.mem_cons, List.mem_flatMap]
      exact .inr ⟨_, hc, ih⟩

theorem mem_walk_self (n : Node) (p : String) : (p, n) ∈ n.walk p :=
  mem_walk_iff.mpr ⟨[], .here n, rfl⟩

/-- A child of a node in the list is in the list. -/
theorem mem_walk_child {n m c : Node} {p q segment : String} (h : (q, m) ∈ n.walk p)
    (hc : (segment, c) ∈ m.children) : (Pointer.child q segment, c) ∈ n.walk p := by
  obtain ⟨path, hm, rfl⟩ := mem_walk_iff.mp h
  refine mem_walk_iff.mpr ⟨path ++ [segment], hm.append (.child hc), ?_⟩
  rw [Pointer.descendant_append]
  rfl

/-- The nodes of a subtree stand next to each other, in the order that they have by themselves. -/
theorem At.walk_infix {n m : Node} {path : List String} (h : n.At path m) (p : String) :
    m.walk (Pointer.descendant p path) <:+: n.walk p := by
  induction h generalizing p with
  | here n => exact List.infix_rfl
  | @down n c m segment path hc _ ih =>
    rw [n.walk_eq]
    have inner : c.walk (Pointer.child p segment) <:+:
        n.children.flatMap fun c => c.2.walk (Pointer.child p c.1) := by
      obtain ⟨before, after, split⟩ := List.append_of_mem hc
      rw [split, List.flatMap_append, List.flatMap_cons]
      exact (List.prefix_append _ _).isInfix.trans (List.suffix_append _ _).isInfix
    exact (ih _).trans (inner.trans (List.suffix_cons _ _).isInfix)

/-- The node and all nodes below it satisfy `P`. -/
def All (P : Node → Prop) (n : Node) : Prop := ∀ path m, n.At path m → P m

theorem all_iff {P : Node → Prop} {n : Node} :
    n.All P ↔ P n ∧ ∀ c ∈ n.children, c.2.All P := by
  constructor
  · intro h
    exact ⟨h [] n (.here n), fun c hc path m hm => h (c.1 :: path) m (.down hc hm)⟩
  · rintro ⟨here, below⟩ path m hm
    cases hm with
    | here => exact here
    | down hc hm => exact below _ hc _ _ hm

theorem All.mono {P Q : Node → Prop} (h : ∀ m, P m → Q m) {n : Node} (hn : n.All P) : n.All Q :=
  fun path m hm => h m (hn path m hm)

/-- The children of a node have different segments: a mapping has no key twice. -/
def HasDistinctChildren (n : Node) : Prop := (n.children.map (·.1)).Nodup

theorem hasDistinctChildren_sequence (o : Origin) (items : List Node) :
    (Node.sequence o items).HasDistinctChildren := by
  have numbers : (Node.sequence o items).children.map (·.1) =
      (List.range items.length).map toString := by
    rw [children, List.map_map, List.range_eq_range', ← List.zipIdx_map_snd 0 items, List.map_map]
    rfl
  rw [HasDistinctChildren, numbers]
  exact List.nodup_range.map fun i j h => toString_injective h

theorem hasDistinctChildren_mapping {o : Origin} {entries : List (Scalar × Node)} :
    (Node.mapping o entries).HasDistinctChildren ↔ (Mapping.keys ⟨o, entries⟩).Nodup := by
  rw [HasDistinctChildren, children, List.map_map]
  rfl

/-- No two nodes of a tree have the same pointer, if no mapping has a key twice. -/
theorem nodup_walk {n : Node} (h : n.All HasDistinctChildren) (p : String) :
    ((n.walk p).map (·.1)).Nodup := by
  induction n using Node.induct generalizing p with
  | step n ih =>
    obtain ⟨distinct, below⟩ := all_iff.mp h
    -- The pointers below a child begin with the segment of that child.
    have path_of : ∀ c ∈ n.children, ∀ q ∈ (c.2.walk (Pointer.child p c.1)).map (·.1),
        ∃ path, q = Pointer.descendant p (c.1 :: path) := by
      rintro c hc q hq
      obtain ⟨⟨q, m⟩, hm, rfl⟩ := List.mem_map.mp hq
      obtain ⟨path, -, same⟩ := mem_walk_iff.mp hm
      exact ⟨path, same⟩
    rw [walk_eq, List.map_cons, List.map_flatMap, List.nodup_cons, List.nodup_flatMap]
    refine ⟨fun hp => ?_, fun c hc => ih c hc (below c hc) _, ?_⟩
    · obtain ⟨c, hc, hp⟩ := List.mem_flatMap.mp hp
      obtain ⟨path, same⟩ := path_of c hc p hp
      exact nomatch Pointer.descendant_injective (show Pointer.descendant p [] = _ from same)
    · refine (List.pairwise_map.mp distinct).imp_of_mem fun {c d} hc hd hne => ?_
      intro q hq hq'
      obtain ⟨path, same⟩ := path_of c hc q hq
      obtain ⟨path', same'⟩ := path_of d hd q hq'
      exact hne (List.cons.inj (Pointer.descendant_injective (same.symm.trans same'))).1

end Node

/-- A tree as trees are specified: keys are unique per mapping. No other tree is read from a text
(`exists_build_of_load`); of one that has a key twice there would be two nodes at one pointer. -/
structure Keyed where
  root : Node
  unique : root.All Node.HasDistinctChildren

/-- The document of a tree, with the text that the tree was read from. -/
def Document.build (t : Keyed) (text : String) : Document := .ofRoot t.root text

end FlowLint.Tree
