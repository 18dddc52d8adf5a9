import FlowLint.Proofs.Trimming
import FlowLint.Tree.Document

/-! Texts of digits. A text that is nothing but digits once the blanks around them are taken away
looks like a number (`Tree.isNumeral`); it is read as one if the digits are decimal, not too many,
and no information separator stands among the blanks (`Integer.exists_read_iff`). -/

namespace FlowLint.Text

/-- A decimal digit is a digit. -/
theorem isDigit_of_isDecimal {c : Char} (h : isDecimal c = true) : isDigit c = true := by
  unfold isDecimal decimalValue? at h
  unfold isDigit
  by_cases ascii : c.toNat < 0x80
  · simp only [ascii, if_true] at h ⊢
    split at h
    next digit => exact digit
    next => cases h
  · simp only [ascii, if_false, List.isSome_findSome?, List.any_eq_true] at h ⊢
    obtain ⟨z, hz, found⟩ := h
    have run : z ≤ c.toNat ∧ c.toNat ≤ z + 9 := by
      split at found
      next inside => simpa using inside
      next => cases found
    have covered : ∀ z ∈ zeroDigits, ∃ r ∈ digitRanges, r.1 ≤ z ∧ z + 9 ≤ r.2 := by decide +kernel
    obtain ⟨r, hr, low, high⟩ := covered z hz
    refine List.any_eq_true.mpr ⟨r, hr, ?_⟩
    simp only [Bool.and_eq_true, decide_eq_true_eq]
    omega

/-- No blank is a digit. -/
theorem isBlank_of_isDigit {c : Char} (h : isDigit c = true) : isBlank c = false := by
  unfold isDigit at h
  unfold isBlank
  by_cases ascii : c.toNat < 0x80
  · simp only [ascii, if_true, Bool.and_eq_true, decide_eq_true_eq] at h ⊢
    simp
    omega
  · simp only [ascii, if_false] at h ⊢
    obtain ⟨r, hr, inside⟩ := List.any_eq_true.mp h
    simp only [Bool.and_eq_true, decide_eq_true_eq] at inside
    have apart : ∀ r ∈ digitRanges, 0xA0 < r.1 ∧ (r.2 < 0x1680 ∨ 0x1680 < r.1) ∧
        (r.2 < 0x2000 ∨ 0x205F < r.1) ∧ (r.2 < 0x3000 ∨ 0x3000 < r.1) := by decide +kernel
    have := apart r hr
    simp
    omega

/-! ### Reading -/

namespace Integer

theorem isBlank_of_isMargin {c : Char} (h : isMargin c = true) : isBlank c = true :=
  (Bool.and_eq_true_iff.mp h).1

theorem isMargin_of_isDecimal {c : Char} (h : isDecimal c = true) : isMargin c = false := by
  simp [isMargin, isBlank_of_isDigit (isDigit_of_isDecimal h)]

theorem isDecimal_of_isMargin {c : Char} (h : isMargin c = true) : isDecimal c = false := by
  cases decimal : isDecimal c with
  | true => rw [isMargin_of_isDecimal decimal] at h; cases h
  | false => rfl

theorem takeSign_of_not_mem {s : List Char} (plus : '+' ∉ s) (minus : '-' ∉ s) :
    takeSign s = (false, s) := by
  unfold takeSign
  split
  next s => exact absurd List.mem_cons_self minus
  next s => exact absurd List.mem_cons_self plus
  next => rfl

/-- Without low lines the digits are those at the start. -/
theorem takeDigits_of_not_mem {s : List Char} (h : '_' ∉ s) (afterDigit : Bool) :
    takeDigits afterDigit s =
      ((s.takeWhile isDecimal).filterMap decimalValue?, s.dropWhile isDecimal) := by
  induction s generalizing afterDigit with
  | nil => rfl
  | cons c s ih =>
    obtain ⟨hc, hs⟩ := not_or.mp (mt List.mem_cons.mpr h)
    rw [takeDigits]
    cases value : decimalValue? c with
    | some d =>
      have decimal : isDecimal c = true := by simp [isDecimal, value]
      simp [ih hs, decimal, value]
    | none =>
      have other : isDecimal c = false := by simp [isDecimal, value]
      have low : (c == '_') = false := beq_false_of_ne (Ne.symm hc)
      simp [low, other]

/-- A text without signs and low lines is read in three pieces: margins, digits, margins. -/
theorem exists_read_iff_pieces {text : String} (low : '_' ∉ text.toList)
    (plus : '+' ∉ text.toList) (minus : '-' ∉ text.toList) :
    (∃ n, read text = .ok n) ↔
      let s := text.toList.dropWhile isMargin
      s.takeWhile isDecimal ≠ [] ∧ (s.takeWhile isDecimal).length ≤ maxDigits ∧
        ∀ c ∈ s.dropWhile isDecimal, isMargin c := by
  have sub : (text.toList.dropWhile isMargin).Sublist text.toList := List.dropWhile_sublist _
  have sign : takeSign (text.toList.dropWhile isMargin) = (false, _) :=
    takeSign_of_not_mem (mt (sub.subset ·) plus) (mt (sub.subset ·) minus)
  simp only [read, sign, takeDigits_of_not_mem (mt (sub.subset ·) low)]
  generalize text.toList.dropWhile isMargin = s at sub
  have next_char : (s.dropWhile isDecimal).head? ≠ some '_' := fun h =>
    low (sub.subset ((List.dropWhile_sublist _).subset (List.mem_of_mem_head? h)))
  have values : ((s.takeWhile isDecimal).filterMap decimalValue?).length =
      (s.takeWhile isDecimal).length :=
    List.filterMap_length_eq_length.mpr (List.all_eq_true.mp List.all_takeWhile)
  generalize (s.takeWhile isDecimal).filterMap decimalValue? = ds at values
  have none_iff : ds.isEmpty = (s.takeWhile isDecimal).isEmpty := by
    rw [Bool.eq_iff_iff, List.isEmpty_iff_length_eq_zero, values,
      List.isEmpty_iff_length_eq_zero]
  rw [none_iff, values, ← List.all_eq_true, ← List.isEmpty_eq_false_iff,
    if_neg (by simpa using next_char)]
  by_cases long : maxDigits < (s.takeWhile isDecimal).length
  · simp [long, Nat.not_le.mpr long]
  · cases (s.takeWhile isDecimal).isEmpty <;> cases (s.dropWhile isDecimal).all isMargin <;>
      simp [long, Nat.not_lt.mp long]

/-- A text without signs and low lines is read if nothing but margins stands around its digits. -/
theorem exists_read_iff_of_plain {text : String} (low : '_' ∉ text.toList)
    (plus : '+' ∉ text.toList) (minus : '-' ∉ text.toList) :
    (∃ n, read text = .ok n) ↔
      ∃ before digits behind, text.toList = before ++ digits ++ behind ∧
        (∀ c ∈ before, isMargin c) ∧ (∀ c ∈ digits, isDecimal c) ∧ (∀ c ∈ behind, isMargin c) ∧
        digits ≠ [] ∧ digits.length ≤ maxDigits := by
  rw [exists_read_iff_pieces low plus minus]
  constructor
  · rintro ⟨there, short, rest⟩
    refine ⟨text.toList.takeWhile isMargin, _, _, ?_, List.all_eq_true.mp List.all_takeWhile,
      List.all_eq_true.mp List.all_takeWhile, rest, there, short⟩
    rw [List.append_assoc, List.takeWhile_append_dropWhile, List.takeWhile_append_dropWhile]
  · rintro ⟨before, digits, behind, split, hbefore, hdigits, hbehind, there, short⟩
    have first : text.toList.dropWhile isMargin = digits ++ behind := by
      rw [split, List.append_assoc]
      refine dropWhile_append_of_forall hbefore fun c hc => ?_
      cases digits with
      | nil => exact absurd rfl there
      | cons c' digits =>
        exact isMargin_of_isDecimal (hdigits c (Option.some.inj hc ▸ List.mem_cons_self))
    have stop : ∀ c ∈ behind.head?, isDecimal c = false := fun c hc =>
      isDecimal_of_isMargin (hbehind c (List.mem_of_mem_head? hc))
    simp only [first, dropWhile_append_of_forall hdigits stop,
      takeWhile_append_of_forall hdigits stop]
    exact ⟨there, short, hbehind⟩

/-- A text of digits between blanks is read if the digits are decimal, there are not too many of
them, and the blanks are margins. -/
theorem exists_read_iff {text : String} (h : Tree.isNumeral (trim text) = true) :
    (∃ n, read text = .ok n) ↔ (∀ c ∈ trimChars text.toList, isDecimal c) ∧
      (trimChars text.toList).length ≤ maxDigits ∧
      ∀ c ∈ text.toList, isBlank c → isMargin c := by
  have digits : trimChars text.toList ≠ [] ∧ ∀ c ∈ trimChars text.toList, isDigit c := by
    simpa [Tree.isNumeral, trim] using h
  obtain ⟨there, digits⟩ := digits
  obtain ⟨before, behind, split, hbefore, hbehind⟩ := exists_trimChars text.toList
  have absent {c : Char} (other : isBlank c = false ∧ isDigit c = false) : c ∉ text.toList := by
    intro hc
    rw [split, List.append_assoc, List.mem_append, List.mem_append] at hc
    rcases hc with hc | hc | hc
    · exact absurd (hbefore c hc) (by simp [other])
    · exact absurd (digits c hc) (by simp [other])
    · exact absurd (hbehind c hc) (by simp [other])
  rw [exists_read_iff_of_plain (absent (by decide)) (absent (by decide)) (absent (by decide))]
  constructor
  · rintro ⟨before', digits', behind', split', hbefore', hdigits', hbehind', there', short⟩
    have blank_free : ∀ c ∈ digits', isBlank c = false := fun c hc =>
      isBlank_of_isDigit (isDigit_of_isDecimal (hdigits' c hc))
    have same : trimChars text.toList = digits' := by
      rw [split']
      exact trimChars_append (fun c hc => isBlank_of_isMargin (hbefore' c hc))
        (fun c hc => isBlank_of_isMargin (hbehind' c hc)) there'
        (fun c hc => blank_free c (List.mem_of_mem_head? hc))
        fun c hc => blank_free c (List.mem_of_mem_getLast? hc)
    rw [same]
    refine ⟨hdigits', short, fun c hc blank => ?_⟩
    rw [split', List.append_assoc, List.mem_append, List.mem_append] at hc
    rcases hc with hc | hc | hc
    · exact hbefore' c hc
    · exact absurd blank (by simp [blank_free c hc])
    · exact hbehind' c hc
  · rintro ⟨decimal, short, margins⟩
    refine ⟨before, _, behind, split, fun c hc => margins c ?_ (hbefore c hc), decimal,
      fun c hc => margins c ?_ (hbehind c hc), there, short⟩
    · rw [split]
      simp [hc]
    · rw [split]
      simp [hc]

end Integer

end FlowLint.Text
