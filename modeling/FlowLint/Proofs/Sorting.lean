import FlowLint.Order
import Mathlib.Data.List.Basic

/-! Sorting by insertion. For a relation that ranks its elements, the sorted list holds the same
elements in order, and dropping elements before or after sorting makes no difference
(`filter_sortOrdered`). A list in order is determined by its parts in which elements may rank the
same (`eq_of_inOrder`), so sorting depends on nothing else. -/

namespace FlowLint

variable {α β : Type} {before : α → α → Bool}

/-- `before` ranks the elements: no two stand before each other, and whatever stands before `z`
stands before `y`, or else `y` stands before `z`. -/
structure Ranks (before : α → α → Bool) : Prop where
  asymm : ∀ x y, before x y = true → before y x = false
  between : ∀ x y z, before x z = true → before x y = true ∨ before y z = true

namespace Ranks

/-- What may stand behind `y` may stand behind all that may stand before `y`. -/
theorem trans_not (h : Ranks before) {x y z : α} (hxy : before y x = false)
    (hyz : before z y = false) : before z x = false := by
  cases hzx : before z x
  · rfl
  · rcases h.between z y x hzx with hzy | hyx
    · simp [hyz] at hzy
    · simp [hxy] at hyx

theorem of_lt (f : α → Nat) : Ranks fun x y => decide (f x < f y) where
  asymm x y h := by
    simp only [decide_eq_true_eq, decide_eq_false_iff_not] at h ⊢
    omega
  between x y z h := by
    simp only [decide_eq_true_eq] at h ⊢
    omega

end Ranks

/-- No element of the list has to stand before an earlier one. -/
def InOrder (before : α → α → Bool) (l : List α) : Prop := l.Pairwise fun x y => before y x = false

theorem insertOrdered_perm (before : α → α → Bool) (x : α) (l : List α) :
    (insertOrdered before x l).Perm (x :: l) := by
  induction l with
  | nil => exact List.Perm.refl _
  | cons y rest ih =>
    simp only [insertOrdered]
    split
    · exact (ih.cons y).trans (List.Perm.swap x y rest)
    · exact List.Perm.refl _

theorem sortOrdered_perm (before : α → α → Bool) (l : List α) : (sortOrdered before l).Perm l := by
  induction l with
  | nil => exact List.Perm.refl _
  | cons x rest ih => exact (insertOrdered_perm before x _).trans (ih.cons x)

@[simp] theorem mem_insertOrdered {x y : α} {l : List α} :
    y ∈ insertOrdered before x l ↔ y = x ∨ y ∈ l := by
  rw [(insertOrdered_perm before x l).mem_iff, List.mem_cons]

@[simp] theorem mem_sortOrdered {x : α} {l : List α} : x ∈ sortOrdered before l ↔ x ∈ l :=
  (sortOrdered_perm before l).mem_iff

/-- In front of elements that it may stand before, an element is inserted at the head. -/
theorem insertOrdered_of_first {x : α} {l : List α} (h : ∀ y ∈ l, before y x = false) :
    insertOrdered before x l = x :: l := by
  cases l with
  | nil => rfl
  | cons y rest => simp [insertOrdered, h y (by simp)]

theorem inOrder_insertOrdered (hr : Ranks before) (x : α) {l : List α} (h : InOrder before l) :
    InOrder before (insertOrdered before x l) := by
  induction l with
  | nil => simp [insertOrdered, InOrder]
  | cons y rest ih =>
    obtain ⟨hy, hrest⟩ := List.pairwise_cons.mp h
    simp only [insertOrdered]
    split
    next hyx =>
      refine List.pairwise_cons.mpr ⟨fun z hz => ?_, ih hrest⟩
      rcases mem_insertOrdered.mp hz with rfl | hz
      · exact hr.asymm _ _ hyx
      · exact hy z hz
    next hyx =>
      have hyx : before y x = false := by simpa using hyx
      refine List.pairwise_cons.mpr ⟨fun z hz => ?_, h⟩
      rcases List.mem_cons.mp hz with rfl | hz
      · exact hyx
      · exact hr.trans_not hyx (hy z hz)

theorem inOrder_sortOrdered (hr : Ranks before) (l : List α) :
    InOrder before (sortOrdered before l) := by
  induction l with
  | nil => exact List.Pairwise.nil
  | cons x rest ih => exact inOrder_insertOrdered hr x ih

/-- A list in order stays as it is. -/
theorem sortOrdered_of_inOrder {l : List α} (h : InOrder before l) : sortOrdered before l = l := by
  induction l with
  | nil => rfl
  | cons x rest ih =>
    obtain ⟨hx, hrest⟩ := List.pairwise_cons.mp h
    rw [sortOrdered, ih hrest, insertOrdered_of_first hx]

theorem pairwise_insertOrdered {R : α → α → Prop} {x : α} {l : List α}
    (h : l.Pairwise fun y z => before y z = true ∨ R y z) (hx : ∀ y ∈ l, R x y) :
    (insertOrdered before x l).Pairwise fun y z => before y z = true ∨ R y z := by
  induction l with
  | nil => exact List.pairwise_singleton _ x
  | cons y rest ih =>
    obtain ⟨hy, hrest⟩ := List.pairwise_cons.mp h
    rw [insertOrdered]
    split
    next first =>
      refine List.pairwise_cons.mpr ⟨fun z hz => ?_, ih hrest fun z hz => hx z (by simp [hz])⟩
      rcases mem_insertOrdered.mp hz with rfl | hz
      · exact .inl first
      · exact hy z hz
    next => exact List.pairwise_cons.mpr ⟨fun z hz => .inr (hx z hz), h⟩

/-- Of two elements of the sorted list the first has to stand before the second, or it did so before
the list was sorted. -/
theorem pairwise_sortOrdered {R : α → α → Prop} {l : List α} (h : l.Pairwise R) :
    (sortOrdered before l).Pairwise fun x y => before x y = true ∨ R x y := by
  induction l with
  | nil => exact .nil
  | cons x rest ih =>
    obtain ⟨hx, hrest⟩ := List.pairwise_cons.mp h
    exact pairwise_insertOrdered (ih hrest) fun y hy => hx y (mem_sortOrdered.mp hy)

/-- In a list in order, what has to stand before another element does. -/
theorem InOrder.lt_of_before (hr : Ranks before) {l : List α} (h : InOrder before l) {i j : Nat}
    {x y : α} (hi : l[i]? = some x) (hj : l[j]? = some y) (first : before x y = true) : i < j := by
  obtain ⟨hi', rfl⟩ := List.getElem?_eq_some_iff.mp hi
  obtain ⟨hj', rfl⟩ := List.getElem?_eq_some_iff.mp hj
  rcases Nat.lt_trichotomy i j with lt | same | gt
  · exact lt
  · subst same
    cases first.symm.trans (hr.asymm _ _ first)
  · have behind := List.pairwise_iff_getElem.mp h j i hj' hi' gt
    cases first.symm.trans behind

theorem filter_insertOrdered (hr : Ranks before) (p : α → Bool) (x : α) {l : List α}
    (h : InOrder before l) : (insertOrdered before x l).filter p =
      if p x then insertOrdered before x (l.filter p) else l.filter p := by
  induction l with
  | nil => cases hx : p x <;> simp [insertOrdered, hx]
  | cons y rest ih =>
    obtain ⟨hy, hrest⟩ := List.pairwise_cons.mp h
    simp only [insertOrdered]
    split
    next hyx =>
      rw [List.filter_cons, List.filter_cons, ih hrest]
      cases hx : p x <;> cases hpy : p y <;> simp [insertOrdered, hyx]
    next hyx =>
      have first : ∀ z ∈ (y :: rest).filter p, before z x = false := by
        intro z hz
        have hyx : before y x = false := by simpa using hyx
        rcases List.mem_cons.mp (List.mem_of_mem_filter hz) with rfl | hz
        · exact hyx
        · exact hr.trans_not hyx (hy z hz)
      rw [insertOrdered_of_first first, List.filter_cons]

/-- Elements may be dropped before or after sorting. -/
theorem filter_sortOrdered (hr : Ranks before) (p : α → Bool) (l : List α) :
    (sortOrdered before l).filter p = sortOrdered before (l.filter p) := by
  induction l with
  | nil => rfl
  | cons x rest ih =>
    rw [sortOrdered, filter_insertOrdered hr p x (inOrder_sortOrdered hr rest), ih,
      List.filter_cons]
    cases hx : p x <;> simp [sortOrdered]

/-- Two lists in order are the same if their parts of each class are, where elements of different
classes never rank the same. -/
theorem eq_of_inOrder [DecidableEq β] {f : α → β} {l l' : List α} (hl : InOrder before l)
    (hl' : InOrder before l') (ties : ∀ x y, before x y = false → before y x = false → f x = f y)
    (h : ∀ b, l.filter (f · = b) = l'.filter (f · = b)) : l = l' := by
  have mem : ∀ x, x ∈ l ↔ x ∈ l' := by
    intro x
    have hx : x ∈ l.filter (f · = f x) ↔ x ∈ l'.filter (f · = f x) := by rw [h]
    simpa using hx
  induction l generalizing l' with
  | nil => exact (List.eq_nil_iff_forall_not_mem.mpr fun x hx => by simpa using (mem x).mpr hx).symm
  | cons x rest ih =>
    cases l' with
    | nil => exact absurd ((mem x).mp (by simp)) (by simp)
    | cons y rest' =>
      obtain ⟨hx, hrest⟩ := List.pairwise_cons.mp hl
      obtain ⟨hy, hrest'⟩ := List.pairwise_cons.mp hl'
      -- each of the two heads occurs in the other list, so neither has to stand before the other
      have class_eq : f x = f y := by
        rcases List.mem_cons.mp ((mem x).mp (by simp)) with rfl | hxy
        · rfl
        rcases List.mem_cons.mp ((mem y).mpr (by simp)) with rfl | hyx
        · rfl
        exact ties x y (hy x hxy) (hx y hyx)
      have heads := h (f x)
      simp only [List.filter_cons, class_eq, decide_true, if_true, List.cons.injEq] at heads
      obtain ⟨rfl, -⟩ := heads
      have tails : ∀ b, rest.filter (f · = b) = rest'.filter (f · = b) := by
        intro b
        have hb := h b
        rw [List.filter_cons, List.filter_cons] at hb
        split at hb
        · exact (List.cons.inj hb).2
        · exact hb
      rw [ih hrest hrest' tails fun z => ?_]
      have hz : z ∈ rest.filter (f · = f z) ↔ z ∈ rest'.filter (f · = f z) := by rw [tails]
      simpa using hz

/-- Sorting depends only on the parts of each class, where elements of different classes never rank
the same. -/
theorem sortOrdered_congr [DecidableEq β] (hr : Ranks before) {f : α → β} {l l' : List α}
    (ties : ∀ x y, before x y = false → before y x = false → f x = f y)
    (h : ∀ b, l.filter (f · = b) = l'.filter (f · = b)) :
    sortOrdered before l = sortOrdered before l' := by
  refine eq_of_inOrder (f := f) (inOrder_sortOrdered hr l) (inOrder_sortOrdered hr l') ties
    fun b => ?_
  rw [filter_sortOrdered hr, filter_sortOrdered hr, h]

end FlowLint
