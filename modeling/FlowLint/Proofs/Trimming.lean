import FlowLint.Text.Blank

/-! Trimming. What is left of a text stands in it between blanks (`dropBlanks_eq_iff`,
`exists_trimChars`), and a text that does not begin or end with a blank is what is left of it
between blanks (`trimChars_append`). -/

namespace FlowLint.Text

variable {before s t behind : List Char}

theorem dropWhile_append_of_forall {p : Char → Bool} (h : ∀ c ∈ before, p c)
    (stop : ∀ c ∈ s.head?, p c = false) : (before ++ s).dropWhile p = s := by
  rw [List.dropWhile_append_of_pos h]
  cases s with
  | nil => rfl
  | cons c s => exact List.dropWhile_cons_of_neg (by simp [stop c rfl])

theorem takeWhile_append_of_forall {p : Char → Bool} (h : ∀ c ∈ before, p c)
    (stop : ∀ c ∈ s.head?, p c = false) : (before ++ s).takeWhile p = before := by
  have split := List.takeWhile_append_dropWhile (p := p) (l := before ++ s)
  rw [dropWhile_append_of_forall h stop] at split
  exact List.append_cancel_right split

theorem dropBlanks_eq_iff (first : ∀ c ∈ t.head?, isBlank c = false) :
    dropBlanks s = t ↔ ∃ before, (∀ c ∈ before, isBlank c) ∧ s = before ++ t := by
  constructor
  · rintro rfl
    exact ⟨s.takeWhile isBlank, List.all_eq_true.mp List.all_takeWhile,
      List.takeWhile_append_dropWhile.symm⟩
  · rintro ⟨before, hbefore, rfl⟩
    exact dropWhile_append_of_forall hbefore first

theorem exists_trimChars (s : List Char) :
    ∃ before behind, s = before ++ trimChars s ++ behind ∧ (∀ c ∈ before, isBlank c) ∧
      ∀ c ∈ behind, isBlank c := by
  refine ⟨s.takeWhile isBlank, ((dropBlanks s).reverse.takeWhile isBlank).reverse, ?_, ?_, ?_⟩
  · have last : trimChars s ++ ((dropBlanks s).reverse.takeWhile isBlank).reverse =
        dropBlanks s := by
      rw [trimChars, dropEndBlanks, ← List.reverse_append, List.takeWhile_append_dropWhile,
        List.reverse_reverse]
    rw [List.append_assoc, last, dropBlanks, List.takeWhile_append_dropWhile]
  · exact List.all_eq_true.mp List.all_takeWhile
  · exact fun c hc => List.all_eq_true.mp List.all_takeWhile c (List.mem_reverse.mp hc)

/-- Trimming gives a text back that stands between blanks and does not begin or end with one. -/
theorem trimChars_append (hbefore : ∀ c ∈ before, isBlank c) (hbehind : ∀ c ∈ behind, isBlank c)
    (there : s ≠ []) (first : ∀ c ∈ s.head?, isBlank c = false)
    (last : ∀ c ∈ s.getLast?, isBlank c = false) : trimChars (before ++ s ++ behind) = s := by
  have front : dropBlanks (before ++ s ++ behind) = s ++ behind := by
    rw [List.append_assoc]
    refine dropWhile_append_of_forall hbefore fun c hc => first c ?_
    rwa [List.head?_append, List.head?_eq_some_head there, Option.some_or,
      ← List.head?_eq_some_head there] at hc
  have back : (behind.reverse ++ s.reverse).dropWhile isBlank = s.reverse :=
    dropWhile_append_of_forall (fun c hc => hbehind c (List.mem_reverse.mp hc))
      fun c hc => last c (by rwa [List.head?_reverse] at hc)
  rw [trimChars, front, dropEndBlanks, List.reverse_append, back, List.reverse_reverse]

end FlowLint.Text
