import FlowLint.Proofs.Pointer

/-! Pointers below others. One pointer is within another if it is the same or goes on behind it with
a slash; for pointers that were built from segments this says that the segments of the one begin
with those of the other (`isWithin_descendant`), however the segments are written. Of two pointers
that hold a third, one is within the other (`isWithin_or_isWithin`), so what lies below one of two
pointers that stand apart stands apart from the other (`Apart.within`). -/

namespace FlowLint.Tree.Pointer

/-- The pointer is `base` or lies below it. -/
def isWithin (base pointer : String) : Bool :=
  pointer == base || Text.startsWith pointer (base ++ "/")

theorem startsWith_slash_iff {base pointer : String} :
    Text.startsWith pointer (base ++ "/") = true ↔ ∃ rest, pointer = base ++ "/" ++ rest := by
  rw [Text.startsWith, List.isPrefixOf_iff_prefix]
  constructor
  · rintro ⟨rest, same⟩
    refine ⟨.ofList rest, String.toList_injective ?_⟩
    simpa using same.symm
  · rintro ⟨rest, rfl⟩
    exact ⟨rest.toList, by simp⟩

theorem isWithin_iff {base pointer : String} :
    isWithin base pointer = true ↔ pointer = base ∨ ∃ rest, pointer = base ++ "/" ++ rest := by
  rw [isWithin, Bool.or_eq_true, beq_iff_eq, startsWith_slash_iff]

theorem isWithin_self (base : String) : isWithin base base = true := isWithin_iff.mpr (.inl rfl)

theorem isWithin_child (base segment : String) : isWithin base (child base segment) = true :=
  isWithin_iff.mpr (.inr ⟨escape segment, rfl⟩)

theorem isWithin_trans {a b c : String} (h : isWithin a b = true) (h' : isWithin b c = true) :
    isWithin a c = true := by
  rcases isWithin_iff.mp h with rfl | ⟨rest, rfl⟩
  · exact h'
  · rcases isWithin_iff.mp h' with rfl | ⟨rest', rfl⟩
    · exact h
    · exact isWithin_iff.mpr (.inr ⟨rest ++ "/" ++ rest', by simp only [String.append_assoc]⟩)

theorem isWithin_descendant_self (base : String) (path : List String) :
    isWithin base (descendant base path) = true := by
  induction path generalizing base with
  | nil => exact isWithin_self base
  | cons segment rest ih => exact isWithin_trans (isWithin_child base segment) (ih _)

/-- Pointers are within one another as their segments begin with one another. -/
theorem isWithin_descendant (path path' : List String) :
    isWithin (descendant "" path) (descendant "" path') = true ↔ path <+: path' := by
  constructor
  · intro h
    rcases isWithin_iff.mp h with same | ⟨rest, same⟩
    · have equal : path' = path :=
        descendant_injective (show descendant "" path' = descendant "" path from same)
      exact equal ▸ List.prefix_rfl
    · have segments := congrArg segments same
      rw [segments_append_slash, segments_descendant, segments_descendant] at segments
      exact ⟨_, segments.symm⟩
  · rintro ⟨rest, rfl⟩
    rw [descendant_append]
    exact isWithin_descendant_self _ rest

theorem tail_of_isWithin {base pointer : String} (h : isWithin base pointer = true) :
    ∃ tail, pointer.toList = base.toList ++ tail ∧ ∀ c t, tail = c :: t → c = '/' := by
  rcases isWithin_iff.mp h with rfl | ⟨rest, rfl⟩
  · exact ⟨[], (List.append_nil _).symm, nofun⟩
  · refine ⟨'/' :: rest.toList, by simp, ?_⟩
    rintro c t ⟨⟩
    rfl

/-- Of two pointers that hold a third, the shorter one holds the longer one. -/
theorem isWithin_of_begins {a b c : String} (shorter : a.toList <+: b.toList)
    (ha : isWithin a c = true) (hb : isWithin b c = true) : isWithin a b = true := by
  obtain ⟨between, split⟩ := shorter
  obtain ⟨tail, behind, slash⟩ := tail_of_isWithin ha
  obtain ⟨tail', behind', -⟩ := tail_of_isWithin hb
  have tails : tail = between ++ tail' := by
    rw [behind, ← split, List.append_assoc] at behind'
    exact List.append_cancel_left behind'
  cases between with
  | nil =>
    rw [List.append_nil] at split
    rw [String.toList_injective split]
    exact isWithin_self b
  | cons x t =>
    obtain rfl := slash x _ tails
    refine isWithin_iff.mpr (.inr ⟨.ofList t, String.toList_injective ?_⟩)
    simp [← split]

theorem isWithin_or_isWithin {a b c : String} (ha : isWithin a c = true)
    (hb : isWithin b c = true) : isWithin a b = true ∨ isWithin b a = true := by
  have begins : ∀ {d}, isWithin d c = true → d.toList <+: c.toList := by
    intro d hd
    obtain ⟨tail, behind, -⟩ := tail_of_isWithin hd
    exact ⟨tail, behind.symm⟩
  rcases List.prefix_or_prefix_of_prefix (begins ha) (begins hb) with shorter | shorter
  · exact .inl (isWithin_of_begins shorter ha hb)
  · exact .inr (isWithin_of_begins shorter hb ha)

/-- Neither pointer is within the other. -/
def Apart (a b : String) : Prop := isWithin a b = false ∧ isWithin b a = false

theorem Apart.symm {a b : String} (h : Apart a b) : Apart b a := ⟨h.2, h.1⟩

theorem Apart.within {a b c : String} (h : Apart a b) (below : isWithin b c = true) :
    Apart a c := by
  constructor
  · refine Bool.eq_false_iff.mpr fun above => ?_
    rcases isWithin_or_isWithin above below with holds | holds
    · exact absurd holds (Bool.eq_false_iff.mp h.1)
    · exact absurd holds (Bool.eq_false_iff.mp h.2)
  · exact Bool.eq_false_iff.mpr fun above =>
      absurd (isWithin_trans below above) (Bool.eq_false_iff.mp h.2)

theorem eq_of_isWithin_child {base s t : String}
    (h : isWithin (child base s) (child base t) = true) : s = t := by
  rcases isWithin_iff.mp h with same | ⟨rest, same⟩
  · have paths : [t] = [s] :=
      descendant_injective (show descendant base [t] = descendant base [s] from same)
    exact (List.cons.inj paths).1.symm
  · have written := congrArg String.toList same
    rw [String.toList_append, String.toList_append, toList_child, toList_child, List.append_assoc,
      List.append_assoc] at written
    have escaped := List.append_cancel_left written
    have slash : '/' ∈ (escape t).toList := by
      rw [(List.cons.inj escaped).2]
      simp
    exact absurd slash (slash_not_mem_escape t)

theorem apart_child (base : String) {s t : String} (differ : s ≠ t) :
    Apart (child base s) (child base t) :=
  ⟨Bool.eq_false_iff.mpr fun h => differ (eq_of_isWithin_child h),
    Bool.eq_false_iff.mpr fun h => differ (eq_of_isWithin_child h).symm⟩

theorem startsWith_of_isWithin_child {base segment pointer : String}
    (h : isWithin (child base segment) pointer = true) :
    Text.startsWith pointer (base ++ "/") = true := by
  refine startsWith_slash_iff.mpr ?_
  rcases isWithin_iff.mp h with rfl | ⟨rest, rfl⟩
  · exact ⟨escape segment, rfl⟩
  · exact ⟨escape segment ++ "/" ++ rest, by simp only [child, String.append_assoc]⟩

end FlowLint.Tree.Pointer
