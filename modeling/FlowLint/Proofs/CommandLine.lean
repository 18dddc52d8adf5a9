import FlowLint.Proofs.Lines
import FlowLint.Proofs.Trimming
import FlowLint.Workflow.Script
import FlowLint.Text.Digit
import Mathlib.Data.List.Infix

/-! Command lines: tokens with spaces between them, for the command `rm`. A token can be told from
where it begins, behind a blank (`Token.exists_of_behind_blank`), and a word without blanks is part
of a line only as a part of a token (`Token.infix_of_solid`). A script that is one such line is one
logical line (`RmLine.logicalLineChars_eq`). -/

namespace FlowLint

/-! ### Texts without blanks -/

namespace Text

variable {w s tail front rest : List Char} {c : Char}

/-- A text without blanks does not reach behind a blank. -/
theorem exists_append_of_solid (solid : ∀ c ∈ w, isBlank c = false)
    (gap : ∀ c ∈ tail.head?, isBlank c = true) (h : w ++ rest = s ++ tail) :
    ∃ u, s = w ++ u ∧ rest = u ++ tail := by
  rcases List.append_eq_append_iff.mp h with ⟨u, rfl, rfl⟩ | ⟨v, rfl, rfl⟩
  · exact ⟨u, rfl, rfl⟩
  · cases v with
    | nil => exact ⟨[], by simp, rfl⟩
    | cons c v =>
      have blank := gap c rfl
      rw [solid c (by simp)] at blank
      cases blank

theorem exists_append_of_blank (solid : ∀ c ∈ w, isBlank c = false) (blank : isBlank c = true)
    (h : w ++ tail = front ++ c :: s) : ∃ front', tail = front' ++ c :: s := by
  rcases List.append_eq_append_iff.mp h with ⟨u, -, rfl⟩ | ⟨v, rfl, same⟩
  · exact ⟨u, rfl⟩
  · cases v with
    | nil => exact ⟨[], same.symm⟩
    | cons d v =>
      obtain ⟨rfl, -⟩ := List.cons.inj same
      rw [solid c (by simp)] at blank
      cases blank

/-- A text without blanks that is part of two texts with a gap between them is part of one. -/
theorem infix_or_infix_of_solid (solid : ∀ c ∈ w, isBlank c = false)
    (gap : ∀ c ∈ tail.head?, isBlank c = true) (h : w <:+: s ++ tail) : w <:+: s ∨ w <:+: tail := by
  obtain ⟨a, b, split⟩ := h
  rw [List.append_assoc] at split
  rcases List.append_eq_append_iff.mp split with ⟨u, rfl, same⟩ | ⟨v, rfl, same⟩
  · obtain ⟨v, rfl, rfl⟩ := exists_append_of_solid solid gap same
    exact .inl ⟨a, v, by simp⟩
  · exact .inr ⟨v, b, by simp [same]⟩

theorem infix_of_infix_spaces {n : Nat} (there : w ≠ []) (solid : ∀ c ∈ w, isBlank c = false)
    (h : w <:+: List.replicate n ' ' ++ s) : w <:+: s := by
  induction n with
  | zero => exact h
  | succ n ih =>
    rw [List.replicate_succ, List.cons_append, List.infix_cons_iff] at h
    rcases h with ⟨rest, first⟩ | h
    · obtain ⟨c, w, rfl⟩ := List.exists_cons_of_ne_nil there
      have space : c = ' ' := (List.cons.inj first).1
      have := solid c List.mem_cons_self
      rw [space] at this
      exact absurd this (by decide)
    · exact ih h

theorem isAlpha_iff : c.isAlpha = true ↔
    (0x41 ≤ c.toNat ∧ c.toNat ≤ 0x5A) ∨ (0x61 ≤ c.toNat ∧ c.toNat ≤ 0x7A) := by
  have upper : c.isUpper = true ↔ 0x41 ≤ c.toNat ∧ c.toNat ≤ 0x5A := decide_eq_true_iff
  have lower : c.isLower = (decide (c.val ≥ 'a'.val) && decide (c.val ≤ 'z'.val)) := rfl
  show (c.isUpper || c.isLower) = true ↔ _
  rw [Bool.or_eq_true, upper, lower, Bool.and_eq_true, decide_eq_true_iff, decide_eq_true_iff]
  rfl

theorem isLetter_of_isAlpha (h : c.isAlpha = true) : isLetter c = true := by
  have range := isAlpha_iff.mp h
  have ascii : c.toNat < 0x80 := by omega
  simpa [isLetter, ascii] using range

theorem isBlank_of_isAlpha (h : c.isAlpha = true) : isBlank c = false := by
  have range := isAlpha_iff.mp h
  have ascii : c.toNat < 0x80 := by omega
  simp [isBlank, ascii]
  omega

theorem isWordChar_of_isLetter (h : isLetter c = true) : isWordChar c = true := by
  simp [isWordChar, h]

end Text

namespace Security

open Text (isBlank isLetter isWordChar)

/-! ### Command lines -/

/-- A token of a command line behind some spaces. It holds no blank and does not speak of `find`. -/
structure Token where
  spaces : Nat
  chars : List Char
  apart : 0 < spaces
  there : chars ≠ []
  solid : ∀ c ∈ chars, isBlank c = false
  other : ¬ "find".toList <:+: chars

def Token.written (t : Token) : List Char := List.replicate t.spaces ' ' ++ t.chars

/-- A hyphen and letters. -/
def IsShortOption (s : List Char) : Prop :=
  ∃ letters, letters ≠ [] ∧ (∀ c ∈ letters, c.isAlpha) ∧ s = '-' :: letters

/-- Two hyphens, a letter, and letters and hyphens; not one that begins with `--recursive-`. -/
def IsLongOption (s : List Char) : Prop :=
  ∃ c rest, isLetter c ∧ (∀ d ∈ rest, isLetter d ∨ d = '-') ∧ s = '-' :: '-' :: c :: rest ∧
    ¬ "--recursive-".toList <+: s

/-- The command `rm` with options and then operands. -/
structure RmLine where
  options : List Token
  operands : List Token
  isOption : ∀ t ∈ options, IsShortOption t.chars ∨ IsLongOption t.chars
  isOperand : ∀ t ∈ operands, t.chars.head? ≠ some '-'

namespace RmLine

/-- The line as it is written. -/
def text (l : RmLine) : List Char :=
  "rm".toList ++ (l.options ++ l.operands).flatMap Token.written

/-- An option asks for recursion: one of its letters is `r` or `R`, or it says so in full. -/
def IsRecursive (l : RmLine) : Prop :=
  ∃ t ∈ l.options, IsShortOption t.chars ∧ ('r' ∈ t.chars ∨ 'R' ∈ t.chars) ∨
    t.chars = "--recursive".toList

end RmLine

theorem Token.eq_space_of_head? (ts : List Token) :
    ∀ c ∈ (ts.flatMap Token.written).head?, c = ' ' := by
  cases ts with
  | nil => nofun
  | cons t ts =>
    obtain ⟨n, hn⟩ := Nat.exists_eq_add_one_of_ne_zero (Nat.ne_of_gt t.apart)
    rw [List.flatMap_cons, Token.written, hn, List.replicate_succ]
    rintro c ⟨⟩
    rfl

theorem Token.isBlank_of_head? (ts : List Token) :
    ∀ c ∈ (ts.flatMap Token.written).head?, isBlank c = true := by
  intro c hc
  rw [Token.eq_space_of_head? ts c hc]
  decide

/-- What stands behind a blank of a line is what some token begins. -/
theorem Token.exists_of_behind_blank {ts : List Token} {front s : List Char} {c d : Char}
    (blank : isBlank c = true) (solid : isBlank d = false)
    (h : ts.flatMap Token.written = front ++ c :: d :: s) :
    ∃ t ∈ ts, ∃ others : List Token, d :: s = t.chars ++ others.flatMap Token.written := by
  induction ts generalizing front with
  | nil => simp at h
  | cons t ts ih =>
    rw [List.flatMap_cons, Token.written, List.append_assoc] at h
    rcases List.append_eq_append_iff.mp h with ⟨u, rfl, same⟩ | ⟨v, spaces, same⟩
    · obtain ⟨front', rest⟩ := Text.exists_append_of_blank t.solid blank same
      obtain ⟨t', ht', found⟩ := ih rest
      exact ⟨t', List.mem_cons_of_mem _ ht', found⟩
    · cases v with
      | nil =>
        rw [← List.nil_append (_ :: _)] at same
        obtain ⟨front', rest⟩ := Text.exists_append_of_blank t.solid blank same.symm
        obtain ⟨t', ht', found⟩ := ih rest
        exact ⟨t', List.mem_cons_of_mem _ ht', found⟩
      | cons e v =>
        obtain ⟨rfl, behind⟩ := List.cons.inj same
        cases v with
        | nil => exact ⟨t, List.mem_cons_self, ts, behind⟩
        | cons e v =>
          obtain ⟨rfl, -⟩ := List.cons.inj behind
          have space : d = ' ' :=
            List.eq_of_mem_replicate (show d ∈ List.replicate t.spaces ' ' by simp [spaces])
          rw [space] at solid
          cases solid

/-- A word without blanks that is part of a line is part of a token. -/
theorem Token.infix_of_solid {ts : List Token} {w : List Char} (there : w ≠ [])
    (solid : ∀ c ∈ w, isBlank c = false) (h : w <:+: ts.flatMap Token.written) :
    ∃ t ∈ ts, w <:+: t.chars := by
  induction ts with
  | nil => exact absurd (List.infix_nil.mp h) there
  | cons t ts ih =>
    rw [List.flatMap_cons, Token.written, List.append_assoc] at h
    have h := Text.infix_of_infix_spaces there solid h
    rcases Text.infix_or_infix_of_solid solid (Token.isBlank_of_head? ts) h with here | later
    · exact ⟨t, List.mem_cons_self, here⟩
    · obtain ⟨t', ht', found⟩ := ih later
      exact ⟨t', List.mem_cons_of_mem _ ht', found⟩

theorem RmLine.eq_space_or_solid (l : RmLine) : ∀ c ∈ l.text, c = ' ' ∨ isBlank c = false := by
  intro c hc
  rcases List.mem_append.mp hc with name | hc
  · have solid : ∀ c ∈ "rm".toList, isBlank c = false := by simp; decide
    exact .inr (solid c name)
  · obtain ⟨t, -, hc⟩ := List.mem_flatMap.mp hc
    rcases List.mem_append.mp hc with space | hc
    · exact .inl (List.eq_of_mem_replicate space)
    · exact .inr (t.solid c hc)

theorem RmLine.trimChars_text (l : RmLine) : Text.trimChars l.text = l.text := by
  have last : ∀ c ∈ l.text.getLast?, isBlank c = false := by
    rw [RmLine.text, List.getLast?_append]
    rcases List.eq_nil_or_concat' (l.options ++ l.operands) with none | ⟨ts, t, tokens⟩
    · rw [none]
      rintro c ⟨⟩
      decide
    · intro c hc
      rw [tokens, List.flatMap_append, List.flatMap_singleton, Token.written, List.getLast?_append,
        List.getLast?_append, List.getLast?_eq_some_getLast t.there] at hc
      cases hc
      exact t.solid _ (List.getLast_mem t.there)
  have trimmed : Text.trimChars ([] ++ l.text ++ []) = l.text :=
    Text.trimChars_append nofun nofun (List.cons_ne_nil _ _) (by rintro c ⟨⟩; decide) last
  simpa using trimmed

theorem RmLine.logicalLineChars_eq (l : RmLine) (complete : l.text.getLast? ≠ some '\\')
    {script : String} (h : script.toList = l.text ∨ script.toList = l.text ++ ['\n']) :
    Script.logicalLineChars script = [l.text] := by
  have solid : ∀ c ∈ l.text, ¬ Text.endsLine c = true := by
    intro c hc ends
    rcases l.eq_space_or_solid c hc with rfl | solid
    · exact absurd ends (by decide)
    · rw [Text.isBlank_of_endsLine ends] at solid
      cases solid
  have lines : Text.lineList script.toList = [l.text] := by
    rcases h with h | h
    · rw [h]
      exact Text.lineList_of_solid (List.cons_ne_nil _ _) solid
    · have newline : Text.lineList ['\n'] = [] :: [] := by decide
      rw [h, Text.lineList_append_of_solid solid newline, List.append_nil]
  have complete : (l.text.getLast? == some '\\') = false := beq_false_of_ne complete
  have command : (l.text.isEmpty || l.text.head? == some '#') = false := rfl
  simp [Script.logicalLineChars, lines, Script.linesFrom, l.trimChars_text, complete, command]

end Security

end FlowLint
