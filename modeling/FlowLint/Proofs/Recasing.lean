import FlowLint.Proofs.Pointer
import FlowLint.Text.Case
import FlowLint.Text.Letter
import Mathlib.Data.List.Forall2

/-! Texts with letters in upper case. No letter is or becomes a blank, a dollar sign or a curly
bracket, so putting some letters into upper case (`Recased`) changes words one by one
(`Recased.words`) and finds nothing at the beginning of a text that was not found there before
(`Recased.prefix_iff`). -/

namespace FlowLint

namespace Text

/-! ### Characters that neither separate words nor begin or end an expression -/

/-- The character is no blank, no dollar sign and no curly bracket. -/
structure Inert (c : Char) : Prop where
  solid : isBlank c = false
  other : c ∉ ['$', '\x7b', '\x7d']

/-- No character with a code in the range, ends included, is a blank, a dollar sign or a curly
bracket. -/
def isInertRange (low high : Nat) : Bool :=
  (0x41 ≤ low && high ≤ 0x5A) || (0x61 ≤ low && high ≤ 0x7A) ||
    (0xA0 < low && (high < 0x1680 || 0x1680 < low) && (high < 0x2000 || 0x205F < low) &&
      (high < 0x3000 || 0x3000 < low))

variable {c d : Char} {low high n : Nat}

theorem inert_of_range (range : isInertRange low high) (above : low ≤ c.toNat)
    (below : c.toNat ≤ high) : Inert c := by
  simp only [isInertRange, Bool.or_eq_true, Bool.and_eq_true, decide_eq_true_eq] at range
  constructor
  · simp only [isBlank]
    split
    · simp
      omega
    · simp
      omega
  · have code {d : Char} (h : c = d) : c.toNat = d.toNat := congrArg Char.toNat h
    simp only [List.mem_cons, List.not_mem_nil, or_false, not_or]
    refine ⟨fun h => ?_, fun h => ?_, fun h => ?_⟩ <;>
    · have := code h
      simp at this
      omega

theorem inert_ofNat (range : isInertRange low high) (above : low ≤ n) (below : n ≤ high) :
    Inert (Char.ofNat n) := by
  by_cases valid : n.isValidChar
  · have code : (Char.ofNat n).toNat = n := by
      rw [Char.ofNat, dif_pos valid]
      rfl
    exact inert_of_range range (by omega) (by omega)
  · have nul : Char.ofNat n = '\x00' := by
      rw [Char.ofNat, dif_neg valid]
      rfl
    rw [nul]
    exact ⟨by decide, by decide⟩

theorem inert_of_isLetter (h : isLetter c = true) : Inert c := by
  unfold isLetter at h
  simp only at h
  split at h
  · simp only [Bool.or_eq_true, Bool.and_eq_true, decide_eq_true_eq] at h
    rcases h with h | h
    · exact inert_of_range (by decide : isInertRange 0x41 0x5A) h.1 h.2
    · exact inert_of_range (by decide : isInertRange 0x61 0x7A) h.1 h.2
  · obtain ⟨r, hr, inside⟩ := List.any_eq_true.mp h
    simp only [Bool.and_eq_true, decide_eq_true_eq] at inside
    have ranges : ∀ r ∈ letterRanges, isInertRange r.1 r.2 := by decide +kernel
    exact inert_of_range (ranges r hr) inside.1 inside.2

theorem exists_of_shiftIn {runs : List (Nat × Nat × Nat × Int)} {m : Nat}
    (h : shiftIn runs n = some m) :
    ∃ r ∈ runs, r.1 ≤ n ∧ n ≤ r.2.1 ∧ m = (n + r.2.2.2).toNat := by
  obtain ⟨r, hr, moved⟩ := List.exists_of_findSome?_eq_some h
  simp only at moved
  by_cases inside : inRun r.1 r.2.1 r.2.2.1 n = true
  · rw [if_pos inside] at moved
    simp only [inRun, Bool.and_eq_true, decide_eq_true_eq] at inside
    exact ⟨r, hr, inside.1.1, inside.1.2, (Option.some.inj moved).symm⟩
  · rw [if_neg inside] at moved
    cases moved

theorem mem_of_lookup {ms : List Nat} (h : upperExpansions.lookup n = some ms) :
    (n, ms) ∈ upperExpansions := by
  obtain ⟨before, behind, split, -⟩ := List.lookup_eq_some_iff.mp h
  simp [split]

theorem inert_of_mem_upperChars (h : isLetter c = true) (hd : d ∈ upperChars c) : Inert d := by
  unfold upperChars at hd
  simp only at hd
  split at hd
  · rw [List.mem_singleton] at hd
    subst hd
    split
    next small =>
      simp only [Bool.and_eq_true, decide_eq_true_eq] at small
      exact inert_ofNat (by decide : isInertRange 0x41 0x5A) (by omega) (by omega)
    next => exact inert_of_isLetter h
  · split at hd
    next ms found =>
      obtain ⟨m, hm, rfl⟩ := List.mem_map.mp hd
      have expansions : ∀ e ∈ upperExpansions, ∀ m ∈ e.2, isInertRange m m := by decide +kernel
      exact inert_ofNat (expansions _ (mem_of_lookup found) m hm) (Nat.le_refl m) (Nat.le_refl m)
    next =>
      split at hd
      next m found =>
        obtain ⟨r, hr, above, below, rfl⟩ := exists_of_shiftIn found
        have runs : ∀ r ∈ upperRuns, 0 ≤ r.1 + r.2.2.2 ∧
            isInertRange (r.1 + r.2.2.2).toNat (r.2.1 + r.2.2.2).toNat := by decide +kernel
        obtain ⟨pos, range⟩ := runs r hr
        rw [List.mem_singleton.mp hd]
        exact inert_ofNat range (by omega) (by omega)
      next => exact List.mem_singleton.mp hd ▸ inert_of_isLetter h

theorem upperChars_ne_nil (c : Char) : upperChars c ≠ [] := by
  unfold upperChars
  simp only
  split
  · exact List.cons_ne_nil _ _
  · split
    next ms found =>
      have expansions : ∀ e ∈ upperExpansions, e.2 ≠ [] := by decide +kernel
      simpa using expansions _ (mem_of_lookup found)
    next => split <;> exact List.cons_ne_nil _ _

/-! ### Letters in upper case -/

/-- The second text is the first with some letters in upper case. -/
inductive Recased : List Char → List Char → Prop where
  | nil : Recased [] []
  | keep (c : Char) {s t : List Char} : Recased s t → Recased (c :: s) (c :: t)
  | raise {c : Char} {s t : List Char} :
      isLetter c → Recased s t → Recased (c :: s) (upperChars c ++ t)

namespace Recased

variable {s s' t t' u w : List Char}

theorem refl (s : List Char) : Recased s s := by
  induction s with
  | nil => exact .nil
  | cons c s ih => exact .keep c ih

theorem append (h : Recased s s') (h' : Recased t t') : Recased (s ++ t) (s' ++ t') := by
  induction h with
  | nil => exact h'
  | keep c _ ih => exact .keep c ih
  | raise letter _ ih =>
    rw [List.append_assoc]
    exact .raise letter ih

theorem split (h : Recased (s ++ t) u) :
    ∃ s' t', u = s' ++ t' ∧ Recased s s' ∧ Recased t t' := by
  induction s generalizing u with
  | nil => exact ⟨[], u, rfl, .nil, h⟩
  | cons c s ih =>
    cases h with
    | keep _ h =>
      obtain ⟨s', t', rfl, front, back⟩ := ih h
      exact ⟨c :: s', t', rfl, .keep c front, back⟩
    | raise letter h =>
      obtain ⟨s', t', rfl, front, back⟩ := ih h
      exact ⟨_, t', (List.append_assoc _ _ _).symm, .raise letter front, back⟩

theorem eq_nil_iff (h : Recased s t) : s = [] ↔ t = [] := by
  cases h with
  | nil => simp
  | keep c h => simp
  | raise letter h => simp [upperChars_ne_nil]

/-- What holds of all inert characters and of all characters of the first text holds of those of
the second. -/
theorem forall_mem {p : Char → Prop} (h : Recased s t) (inert : ∀ d, Inert d → p d)
    (all : ∀ c ∈ s, p c) : ∀ c ∈ t, p c := by
  induction h with
  | nil => exact all
  | keep c _ ih =>
    obtain ⟨hc, hs⟩ := List.forall_mem_cons.mp all
    exact List.forall_mem_cons.mpr ⟨hc, ih hs⟩
  | raise letter _ ih =>
    obtain ⟨-, hs⟩ := List.forall_mem_cons.mp all
    intro d hd
    rcases List.mem_append.mp hd with hd | hd
    · exact inert d (inert_of_mem_upperChars letter hd)
    · exact ih hs d hd

theorem solid (h : Recased s t) (solid : ∀ c ∈ s, isBlank c = false) :
    ∀ c ∈ t, isBlank c = false :=
  h.forall_mem (fun _ hd => hd.solid) solid

/-- A text without inert characters stays as it is. -/
theorem eq_of_not_inert (h : Recased s t) (fixed : ∀ c ∈ s, ¬ Inert c) : t = s := by
  induction h with
  | nil => rfl
  | keep c _ ih => rw [ih fun d hd => fixed d (List.mem_cons_of_mem c hd)]
  | raise letter _ _ => exact absurd (inert_of_isLetter letter) (fixed _ List.mem_cons_self)

/-- Texts without inert characters are found at the beginning of both or of none. -/
theorem prefix_iff (h : Recased s t) (fixed : ∀ c ∈ w, ¬ Inert c) : w <+: s ↔ w <+: t := by
  induction w generalizing s t with
  | nil => simp
  | cons c w ih =>
    obtain ⟨hc, hw⟩ := List.forall_mem_cons.mp fixed
    cases h with
    | nil => exact Iff.rfl
    | keep d h => rw [List.cons_prefix_cons, List.cons_prefix_cons, ih h hw]
    | @raise d s t letter h =>
      obtain ⟨e, block, raised⟩ := List.exists_cons_of_ne_nil (upperChars_ne_nil d)
      have he : Inert e := inert_of_mem_upperChars letter (raised ▸ List.mem_cons_self)
      rw [raised, List.cons_append, List.cons_prefix_cons, List.cons_prefix_cons]
      constructor
      · rintro ⟨rfl, -⟩
        exact absurd (inert_of_isLetter letter) hc
      · rintro ⟨rfl, -⟩
        exact absurd he hc

end Recased

/-! ### Pieces and words -/

theorem pieces_append_of_not_sep {sep : Char → Bool} {w s p : List Char} {ps : List (List Char)}
    (h : ∀ c ∈ w, sep c = false) (read : pieces sep s = p :: ps) :
    pieces sep (w ++ s) = (w ++ p) :: ps := by
  induction w with
  | nil => exact read
  | cons c w ih =>
    obtain ⟨hc, hw⟩ := List.forall_mem_cons.mp h
    rw [List.cons_append, pieces, if_neg (by simp [hc]), ih hw]
    rfl

section

variable {s t : List Char}

theorem words_append_blank (h : isBlank c = true) : words (s ++ c :: t) = words s ++ words t := by
  rw [words, pieces_append_sep h, List.filter_append]
  rfl

theorem words_of_solid (solid : ∀ c ∈ s, isBlank c = false) :
    words s = if s = [] then [] else [s] := by
  rw [words, pieces_of_no_sep solid]
  by_cases none : s = [] <;> simp [none]

/-- Where no letter is a separator, the pieces are recased one by one. -/
theorem Recased.pieces {sep : Char → Bool} (hsep : ∀ d, Inert d → sep d = false)
    (h : Recased s t) : List.Forall₂ Recased (pieces sep s) (pieces sep t) := by
  -- A piece of the shape of `w` is put in front of the first one.
  have front {w w' s t : List Char} (hw : ∀ c ∈ w, sep c = false) (hw' : ∀ c ∈ w', sep c = false)
      (first : Recased w w') (ih : List.Forall₂ Recased (Text.pieces sep s) (Text.pieces sep t)) :
      List.Forall₂ Recased (Text.pieces sep (w ++ s)) (Text.pieces sep (w' ++ t)) := by
    obtain ⟨p, ps, hs⟩ := List.exists_cons_of_ne_nil (pieces_ne_nil sep s)
    obtain ⟨q, qs, ht⟩ := List.exists_cons_of_ne_nil (pieces_ne_nil sep t)
    rw [pieces_append_of_not_sep hw hs, pieces_append_of_not_sep hw' ht]
    rw [hs, ht] at ih
    cases ih with
    | cons hp rest => exact .cons (first.append hp) rest
  induction h with
  | nil => exact .cons .nil .nil
  | @keep c s t _ ih =>
    cases separates : sep c with
    | true =>
      rw [Text.pieces, if_pos separates, Text.pieces, if_pos separates]
      exact .cons .nil ih
    | false =>
      have one : ∀ d ∈ [c], sep d = false := by simpa using separates
      exact front one one (.refl [c]) ih
  | @raise c s t letter _ ih =>
    have one : ∀ d ∈ [c], sep d = false := by simpa using hsep c (inert_of_isLetter letter)
    have block : ∀ d ∈ upperChars c, sep d = false := fun d hd =>
      hsep d (inert_of_mem_upperChars letter hd)
    have raised : Recased [c] (upperChars c) := by
      have := Recased.raise letter .nil
      rwa [List.append_nil] at this
    exact front one block raised ih

theorem Recased.words (h : Recased s t) : List.Forall₂ Recased (words s) (words t) := by
  refine List.rel_filter ?_ (h.pieces fun _ hd => hd.solid)
  intro p q hpq
  simp [hpq.eq_nil_iff]

end

end Text

end FlowLint
