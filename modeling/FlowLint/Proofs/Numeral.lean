import FlowLint.Tree.Document
import Mathlib.Algebra.Group.Nat.Defs

/-! Numbers that are written and read again. The text of a number that is small enough to be read
is read as that number (`Text.Integer.read_toString`); so the segments that number the items of a
sequence lead back to the items. -/

namespace FlowLint

theorem toString_injective {i j : Nat} (h : toString i = toString j) : i = j := by
  have digits : Nat.toDigits 10 i = Nat.toDigits 10 j := by
    simpa [Nat.toString_eq_ofList_toDigits] using congrArg String.toList h
  rw [← Nat.ofDigitChars_ten_toDigits (n := i), digits, Nat.ofDigitChars_ten_toDigits]

namespace Text

theorem toNat_of_isDigit {c : Char} (h : c.isDigit = true) : 48 ≤ c.toNat ∧ c.toNat ≤ 57 := by
  simp only [Char.isDigit, Bool.and_eq_true, decide_eq_true_eq] at h
  exact ⟨h.1, h.2⟩

theorem isDigit_of_ascii {c : Char} (h : c.isDigit = true) : isDigit c = true := by
  have := toNat_of_isDigit h
  simp [isDigit, show c.toNat < 0x80 by omega, this]

theorem decimalValue?_of_ascii {c : Char} (h : c.isDigit = true) :
    decimalValue? c = some (c.toNat - 48) := by
  have := toNat_of_isDigit h
  simp [decimalValue?, show c.toNat < 0x80 by omega, this]

namespace Integer

theorem takeDigits_of_ascii {s : List Char} (h : ∀ c ∈ s, c.isDigit = true) (afterDigit : Bool) :
    takeDigits afterDigit s = (s.map fun c => c.toNat - 48, []) := by
  induction s generalizing afterDigit with
  | nil => rfl
  | cons c s ih =>
    obtain ⟨hc, hs⟩ := List.forall_mem_cons.mp h
    rw [takeDigits, decimalValue?_of_ascii hc, ih hs]
    rfl

theorem ofDigits_map (s : List Char) :
    ofDigits (s.map fun c => c.toNat - 48) = Nat.ofDigitChars 10 s 0 := by
  rw [ofDigits, List.foldl_map, Nat.ofDigitChars_eq_foldl]
  rfl

/-- What comes before the digits is neither a blank nor a sign. -/
theorem takeSign_dropWhile_of_ascii {s : List Char} (h : ∀ c ∈ s, c.isDigit = true) :
    takeSign (s.dropWhile isMargin) = (false, s) := by
  cases s with
  | nil => rfl
  | cons c s =>
    have := toNat_of_isDigit (h c List.mem_cons_self)
    have margin : isMargin c = false := by
      simp [isMargin, isBlank, show c.toNat < 0x80 by omega]
      omega
    have minus : c ≠ '-' := by rintro rfl; simp at this
    have plus : c ≠ '+' := by rintro rfl; simp at this
    rw [List.dropWhile_cons_of_neg (by simp [margin]), takeSign]
    · rintro s' same
      exact minus (List.cons.inj same).1
    · rintro s' same
      exact plus (List.cons.inj same).1

/-- The text of a number with few enough digits is read as that number. -/
theorem read_toString {i : Nat} (h : i < 10 ^ maxDigits) : read (toString i) = .ok i := by
  have ascii : ∀ c ∈ Nat.toDigits 10 i, c.isDigit = true := fun c hc =>
    Nat.isDigit_of_mem_toDigits (by decide) (by decide) hc
  have short : ¬ maxDigits < (Nat.toDigits 10 i).length := by
    have := (Nat.length_toDigits_le_iff (n := i) (k := maxDigits) (by decide) (by decide)).mpr h
    omega
  have some_digit : (Nat.toDigits 10 i).isEmpty = false := by simp
  simp only [read, Nat.toString_eq_repr, Nat.toList_repr, takeSign_dropWhile_of_ascii ascii,
    takeDigits_of_ascii ascii, ofDigits_map, List.length_map, short, List.isEmpty_map, some_digit,
    Nat.ofDigitChars_ten_toDigits]
  rfl

end Integer

end Text

theorem Tree.isNumeral_toString (i : Nat) : isNumeral (toString i) = true := by
  have ascii : ∀ c ∈ Nat.toDigits 10 i, Text.isDigit c = true := fun c hc =>
    Text.isDigit_of_ascii (Nat.isDigit_of_mem_toDigits (by decide) (by decide) hc)
  simpa [isNumeral] using ascii

end FlowLint
