import FlowLint.Tree.Pointer

/-! Pointers and the segments that they are made of. A slash inside a segment is written without
one, so a pointer gives back the segments that it was built from (`segments_descendant`), and the
pointer of a child gives back the pointer of its parent (`parent_child`). -/

namespace FlowLint

namespace Text

theorem pieces_append_sep {sep : Char → Bool} {c : Char} (hc : sep c = true) (s t : List Char) :
    pieces sep (s ++ c :: t) = pieces sep s ++ pieces sep t := by
  induction s with
  | nil => simp [pieces, hc]
  | cons d s ih =>
    simp only [List.cons_append, pieces, ih]
    split
    · rfl
    · split
      next h => exact absurd (List.append_eq_nil_iff.mp h).1 (pieces_ne_nil sep s)
      next p ps h =>
        cases hs : pieces sep s with
        | nil => exact absurd hs (pieces_ne_nil sep s)
        | cons q qs =>
          rw [hs, List.cons_append] at h
          cases h
          rfl

theorem pieces_of_no_sep {sep : Char → Bool} {s : List Char} (h : ∀ c ∈ s, sep c = false) :
    pieces sep s = [s] := by
  induction s with
  | nil => rfl
  | cons c s ih =>
    obtain ⟨hc, hs⟩ := List.forall_mem_cons.mp h
    simp [pieces, hc, ih hs]

theorem afterLast_append {c : Char} {s t : List Char} (h : c ∉ t) :
    afterLast c (s ++ c :: t) = t := by
  have keeps : ∀ d ∈ t.reverse, (d != c) = true := by
    intro d hd
    have : d ≠ c := fun same => h (same ▸ List.mem_reverse.mp hd)
    simpa using this
  have rev : (s ++ c :: t).reverse = t.reverse ++ c :: s.reverse := by simp
  rw [afterLast, rev, List.takeWhile_append_of_pos keeps]
  simp

end Text

namespace Tree.Pointer

theorem slash_not_mem_escape (s : String) : '/' ∉ (escape s).toList := by
  simp only [escape, String.toList_ofList, List.mem_flatMap, not_exists, not_and]
  intro c _ h
  unfold escapeChar at h
  split at h
  · simp at h
  · split at h
    · simp at h
    next hc =>
      rw [List.mem_singleton] at h
      simp [← h] at hc

theorem toList_child (base segment : String) :
    (child base segment).toList = base.toList ++ '/' :: (escape segment).toList := by
  simp [child]

@[simp] theorem child_ne_empty (base segment : String) : child base segment ≠ "" := by
  intro h
  have := congrArg String.toList h
  simp [toList_child] at this

theorem segments_empty : segments "" = [] := rfl

/-- The segments behind a slash are read by themselves. -/
theorem segments_append_slash (base rest : String) :
    segments (base ++ "/" ++ rest) =
      segments base ++ (Text.pieces (· == '/') rest.toList).map unescape := by
  have split : (base ++ "/" ++ rest).toList = base.toList ++ '/' :: rest.toList := by simp
  rw [segments, segments, split, Text.pieces_append_sep (by rfl),
    List.tail_append_of_ne_nil (Text.pieces_ne_nil _ _), List.map_append]

@[simp] theorem segments_child (base segment : String) :
    segments (child base segment) = segments base ++ [segment] := by
  have plain : ∀ c ∈ (escape segment).toList, (c == '/') = false := by
    intro c hc
    have : c ≠ '/' := fun same => slash_not_mem_escape segment (same ▸ hc)
    simpa using this
  rw [child, segments_append_slash, Text.pieces_of_no_sep plain, List.map_singleton,
    unescape_escape]

theorem segments_descendant_append (base : String) (path : List String) :
    segments (descendant base path) = segments base ++ path := by
  induction path generalizing base with
  | nil => simp [descendant]
  | cons segment rest ih =>
    have step : descendant base (segment :: rest) = descendant (child base segment) rest := rfl
    rw [step, ih, segments_child, List.append_assoc, List.singleton_append]

/-- A pointer gives back the segments that it was built from. -/
@[simp] theorem segments_descendant (path : List String) :
    segments (descendant "" path) = path := by
  rw [segments_descendant_append, segments_empty, List.nil_append]

theorem descendant_injective {base : String} {path path' : List String}
    (h : descendant base path = descendant base path') : path = path' := by
  have := congrArg segments h
  rw [segments_descendant_append, segments_descendant_append] at this
  exact List.append_cancel_left this

theorem descendant_append (base : String) (path path' : List String) :
    descendant base (path ++ path') = descendant (descendant base path) path' :=
  List.foldl_append

theorem descendant_concat (base : String) (path : List String) (segment : String) :
    descendant base (path ++ [segment]) = child (descendant base path) segment :=
  descendant_append base path [segment]

/-- The parent is what stands before the last slash. -/
theorem parent_append_slash {base last : String} (h : '/' ∉ last.toList) :
    parent (base ++ "/" ++ last) = base := by
  have split : (base ++ "/" ++ last).toList = base.toList ++ '/' :: last.toList := by simp
  have length : (base.toList ++ '/' :: last.toList).length - last.toList.length - 1 =
      base.toList.length := by
    rw [List.length_append, List.length_cons]
    omega
  simp only [parent]
  rw [split, Text.afterLast_append h, length, List.take_left, String.ofList_toList]

/-- The pointer of a child gives back the pointer of its parent. -/
@[simp] theorem parent_child (base segment : String) : parent (child base segment) = base :=
  parent_append_slash (slash_not_mem_escape segment)

theorem ancestors_child {fuel : Nat} (base segment : String) :
    ancestors (fuel + 1) (child base segment) =
      child base segment :: ancestors fuel base := by
  have slash : (child base segment).toList.contains '/' = true := by
    rw [toList_child]
    simp
  rw [ancestors, if_pos slash, parent_child]

/-- A pointer is empty or begins with a slash. -/
def IsRooted (pointer : String) : Prop := pointer = "" ∨ pointer.toList.head? = some '/'

theorem IsRooted.child {base : String} (h : IsRooted base) (segment : String) :
    IsRooted (Pointer.child base segment) := by
  right
  rw [toList_child]
  rcases h with rfl | h
  · rfl
  · rw [List.head?_append, h]
    rfl

theorem IsRooted.descendant {base : String} (h : IsRooted base) (path : List String) :
    IsRooted (Pointer.descendant base path) := by
  induction path generalizing base with
  | nil => exact h
  | cons segment rest ih => exact ih (h.child segment)

end Tree.Pointer

end FlowLint
