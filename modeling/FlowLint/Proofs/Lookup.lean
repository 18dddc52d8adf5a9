import FlowLint.Proofs.Walk

/-! Finding nodes by their pointers. In a tree without repeated keys, and without sequences whose
numbers are too long to be read, the pointer of a node leads to that node (`nodeAt_of_mem_walk`).
The table of places holds each pointer of the tree once (`index?_eq_some_iff`); the order of a
pointer that stands in it is its place, and the order of the pointer of a child that does not
exist is the place of the parent. -/

namespace FlowLint.Tree

theorem Mapping.get?_of_mem {m : Mapping} {key : Scalar} {n : Node} (distinct : m.keys.Nodup)
    (h : (key, n) ∈ m.entries) : m.get? key.value = some n := by
  obtain ⟨o, entries⟩ := m
  induction entries with
  | nil => cases h
  | cons e rest ih =>
    obtain ⟨absent, distinct⟩ := List.nodup_cons.mp distinct
    rcases List.mem_cons.mp h with rfl | h
    · simp [Mapping.get?, Mapping.entry?]
    · have other : (e.1.value == key.value) = false := by
        rw [beq_eq_false_iff_ne]
        intro same
        exact absent (List.mem_map.mpr ⟨_, h, same.symm⟩)
      have := ih distinct h
      simp only [Mapping.get?, Mapping.entry?] at this ⊢
      rwa [List.find?_cons, other]

theorem Mapping.get?_mem {m : Mapping} {key : String} {n : Node} (h : m.get? key = some n) :
    ∃ k, (k, n) ∈ m.entries ∧ k.value = key := by
  obtain ⟨e, he, rfl⟩ := Option.map_eq_some_iff.mp h
  exact ⟨e.1, List.mem_of_find?_eq_some he, by simpa using List.find?_some he⟩

/-- What the lookup of children goes by: different children have different segments, and there are
at most `k` items to number. -/
structure Node.IsSound (k : Nat) (n : Node) : Prop where
  distinct : n.HasDistinctChildren
  few : ∀ o items, n = .sequence o items → items.length ≤ k

theorem Node.IsSound.mono {k l : Nat} (h : k ≤ l) {n : Node} (hn : n.IsSound k) : n.IsSound l :=
  ⟨hn.distinct, fun o items same => Nat.le_trans (hn.few o items same) h⟩

theorem Node.child?_of_mem {n c : Node} {segment : String}
    (sound : n.IsSound (10 ^ Text.Integer.maxDigits)) (h : (segment, c) ∈ n.children) :
    n.child? segment = .ok (some c) := by
  cases n with
  | scalar s => cases h
  | sequence o items =>
    obtain ⟨i, hi, rfl⟩ := mem_children_sequence.mp h
    have small : i < 10 ^ Text.Integer.maxDigits := by
      have := (List.getElem?_eq_some_iff.mp hi).1
      have := sound.few o items rfl
      omega
    simp only [child?, isNumeral_toString, if_true, Text.Integer.read_toString small]
    simpa [Except.map] using hi
  | mapping o entries =>
    obtain ⟨key, hkey, rfl⟩ := mem_children_mapping.mp h
    have distinct := hasDistinctChildren_mapping.mp sound.distinct
    rw [child?, Mapping.get?_of_mem distinct hkey]

theorem Node.descend_of_at {n m : Node} {path : List String}
    (sound : n.All (IsSound (10 ^ Text.Integer.maxDigits))) (h : n.At path m) :
    n.descend path = .ok (some m) := by
  induction h with
  | here n => rfl
  | down hc _ ih =>
    obtain ⟨here, below⟩ := all_iff.mp sound
    rw [descend, child?_of_mem here hc]
    exact ih (below _ hc)

namespace Document

variable {doc : Document}

theorem mem_pointers_iff {p : String} :
    p ∈ doc.pointers ↔ ∃ path n, doc.root.At path n ∧ p = Pointer.descendant "" path := by
  rw [doc.pointers_eq, List.mem_map]
  constructor
  · rintro ⟨⟨p, n⟩, h, rfl⟩
    obtain ⟨path, hn, same⟩ := Node.mem_walk_iff.mp h
    exact ⟨path, n, hn, same⟩
  · rintro ⟨path, n, hn, same⟩
    exact ⟨(p, n), Node.mem_walk_iff.mpr ⟨path, hn, same⟩, rfl⟩

theorem isRooted_of_mem_pointers {p : String} (h : p ∈ doc.pointers) : Pointer.IsRooted p := by
  obtain ⟨path, -, -, rfl⟩ := mem_pointers_iff.mp h
  exact Pointer.IsRooted.descendant (.inl rfl) path

/-- A pointer of the tree leads to its node. -/
theorem nodeAt_of_mem_walk {p : String} {n : Node}
    (sound : doc.root.All (Node.IsSound (10 ^ Text.Integer.maxDigits)))
    (h : (p, n) ∈ doc.root.walk "") : doc.nodeAt p = .ok (some n) := by
  obtain ⟨path, hn, rfl⟩ := Node.mem_walk_iff.mp h
  have found := Node.descend_of_at sound hn
  rw [nodeAt, Pointer.segments_descendant, found]
  split
  next blank =>
    -- Only the root has an empty pointer.
    have same : Pointer.descendant "" path = "" := String.isEmpty_iff.mp blank
    rw [Pointer.descendant_injective (show _ = Pointer.descendant "" [] from same)] at found
    exact found
  · rfl

theorem nodup_pointers (distinct : doc.root.All Node.HasDistinctChildren) :
    doc.pointers.Nodup := by
  rw [doc.pointers_eq]
  exact Node.nodup_walk distinct ""

/-- What the table holds for a pointer is a place where it stands among the pointers. -/
theorem getElem?_of_index? {p : String} {i : Nat} (h : doc.index? p = some i) :
    doc.pointers[i]? = some p := by
  obtain ⟨before, after, split, -⟩ := List.lookup_eq_some_iff.mp h
  have listed : (p, i) ∈ doc.pointers.zipIdx.reverse := by rw [split]; simp
  exact List.mem_zipIdx_iff_getElem?.mp (List.mem_reverse.mp listed)

theorem mem_pointers_of_index? {p : String} {i : Nat} (h : doc.index? p = some i) :
    p ∈ doc.pointers := List.mem_of_getElem? (getElem?_of_index? h)

theorem index?_eq_none_iff {p : String} : doc.index? p = none ↔ p ∉ doc.pointers := by
  constructor
  · intro absent listed
    obtain ⟨i, hi⟩ := List.mem_iff_getElem?.mp listed
    have := List.lookup_eq_none_iff.mp absent (p, i)
      (List.mem_reverse.mpr (List.mem_zipIdx_iff_getElem?.mpr hi))
    simp at this
  · intro absent
    refine Option.eq_none_iff_forall_not_mem.mpr fun i hi => ?_
    exact absent (mem_pointers_of_index? hi)

/-- The table of places says where a pointer stands among the pointers. -/
theorem index?_eq_some_iff (distinct : doc.pointers.Nodup) {p : String} {i : Nat} :
    doc.index? p = some i ↔ doc.pointers[i]? = some p := by
  refine ⟨getElem?_of_index?, fun h => ?_⟩
  obtain ⟨j, hj⟩ := Option.ne_none_iff_exists'.mp
    (fun absent => index?_eq_none_iff.mp absent (List.mem_of_getElem? h))
  have at_j := getElem?_of_index? hj
  have same : i = j := (List.getElem?_inj (List.getElem?_eq_some_iff.mp h).1 distinct).mp
    (h.trans at_j.symm)
  rw [same, hj]

/-- The first of the pointers is that of the root. -/
theorem pointers_root : doc.pointers[0]? = some "" := by
  rw [doc.pointers_eq, Node.walk_eq]
  rfl

theorem findSome?_ancestors (distinct : doc.pointers.Nodup) {p : String} {i fuel : Nat}
    (h : doc.pointers[i]? = some p) (enough : 0 < fuel) :
    ((Pointer.ancestors fuel p).findSome? doc.index?).getD 0 = i := by
  obtain ⟨fuel, rfl⟩ := Nat.exists_eq_add_of_lt enough
  obtain ⟨path, -, -, rfl⟩ := mem_pointers_iff.mp (List.mem_of_getElem? h)
  rcases List.eq_nil_or_concat path with rfl | ⟨path, segment, rfl⟩
  · have : i = 0 := (List.getElem?_inj (by simpa using
      (List.getElem?_eq_some_iff.mp pointers_root).1) distinct).mp
        (pointers_root.trans h.symm) |>.symm
    subst this
    rfl
  · rw [Nat.zero_add, List.concat_eq_append, Pointer.descendant_append] at *
    have : Pointer.descendant (Pointer.descendant "" path) [segment] =
      Pointer.child (Pointer.descendant "" path) segment := rfl
    rw [this] at h ⊢
    rw [Pointer.ancestors_child, List.findSome?_cons, (index?_eq_some_iff distinct).mpr h]
    rfl

/-- The order of a pointer of the tree is its place. -/
theorem orderOf_of_getElem? (distinct : doc.pointers.Nodup) {p : String} {i : Nat}
    (h : doc.pointers[i]? = some p) : doc.orderOf p = i :=
  findSome?_ancestors distinct h (Nat.succ_pos _)

/-- The order of a child that does not exist is that of the parent. -/
theorem orderOf_child (distinct : doc.pointers.Nodup) {base segment : String} {i : Nat}
    (h : doc.pointers[i]? = some base) (absent : Pointer.child base segment ∉ doc.pointers) :
    doc.orderOf (Pointer.child base segment) = i := by
  rw [orderOf, Pointer.ancestors_child, List.findSome?_cons,
    index?_eq_none_iff.mpr absent]
  refine findSome?_ancestors distinct h ?_
  rw [← String.length_toList, Pointer.toList_child, List.length_append, List.length_cons]
  omega

end Document

end FlowLint.Tree
