import FlowLint.Text.Blank
import FlowLint.Text.Lines
import Mathlib.Tactic.Cases

/-! The lines of a text, in the order in which the text is read. -/

namespace FlowLint.Text

variable {s : List Char} {e : Char}

theorem lineList_cons_of_ends (ends : endsLine e = true)
    (apart : ∀ s', e = '\r' → s = '\n' :: s' → False) : lineList (e :: s) = [] :: lineList s := by
  rw [lineList.eq_3 _ _ apart, if_pos ends]

theorem apart_of_solid (solid : ¬ endsLine e = true) :
    ∀ s', e = '\r' → s = '\n' :: s' → False := by
  rintro s' rfl -
  exact absurd (by decide) solid

theorem lineList_cons_of_solid {line : List Char} {lines : List (List Char)}
    (solid : ¬ endsLine e = true) (read : lineList s = line :: lines) :
    lineList (e :: s) = (e :: line) :: lines := by
  rw [lineList.eq_3 _ _ (apart_of_solid solid), if_neg solid, read]

theorem lineList_singleton (solid : ¬ endsLine e = true) : lineList [e] = [[e]] := by
  rw [lineList.eq_3 _ _ (apart_of_solid solid), if_neg solid]
  rfl

theorem length_lineList_cons_of_solid (solid : ¬ endsLine e = true) (some_left : lineList s ≠ []) :
    (lineList (e :: s)).length = (lineList s).length := by
  obtain ⟨line, lines, read⟩ := List.exists_cons_of_ne_nil some_left
  rw [lineList_cons_of_solid solid read, read, List.length_cons, List.length_cons]

theorem lineList_append_of_solid {start line : List Char} {lines : List (List Char)}
    (solid : ∀ c ∈ start, ¬ endsLine c = true) (read : lineList s = line :: lines) :
    lineList (start ++ s) = (start ++ line) :: lines := by
  induction start with
  | nil => exact read
  | cons c start ih =>
    obtain ⟨first, others⟩ := List.forall_mem_cons.mp solid
    exact lineList_cons_of_solid first (ih others)

theorem lineList_of_solid (some_left : s ≠ []) (solid : ∀ c ∈ s, ¬ endsLine c = true) :
    lineList s = [s] := by
  induction s with
  | nil => exact absurd rfl some_left
  | cons c s ih =>
    obtain ⟨first, others⟩ := List.forall_mem_cons.mp solid
    cases s with
    | nil => exact lineList_singleton first
    | cons d s => exact lineList_cons_of_solid first (ih (List.cons_ne_nil d s) others)

theorem solid_of_mem_lineList {line : List Char} (h : line ∈ lineList s) :
    ∀ c ∈ line, ¬ endsLine c = true := by
  fun_induction lineList s generalizing line with
  | case1 => cases h
  | case2 s ih | case3 c s apart ends ih =>
    rcases List.mem_cons.mp h with rfl | h
    · simp
    · exact ih h
  | case4 c s apart solid empty ih =>
    obtain rfl := List.mem_singleton.mp h
    simpa using solid
  | case5 c s apart solid first others read ih =>
    rw [read] at ih
    rcases List.mem_cons.mp h with rfl | h
    · exact List.forall_mem_cons.mpr ⟨solid, ih List.mem_cons_self⟩
    · exact ih (List.mem_cons_of_mem _ h)

theorem isBlank_of_endsLine (ends : endsLine e = true) : isBlank e = true := by
  simp only [endsLine, Bool.or_eq_true, Bool.and_eq_true, decide_eq_true_eq, beq_iff_eq] at ends
  unfold isBlank
  simp only
  split
  · simp
    omega
  · simp
    omega

/-- The text has no unfinished line. -/
def EndsLine (s : String) : Prop := s = "" ∨ s.toList.getLast? = some '\n'

theorem lineList_ne_nil (c : Char) (s : List Char) : lineList (c :: s) ≠ [] := by
  generalize h : c :: s = l
  fun_cases lineList l <;> simp_all

theorem lineList_append {s : List Char} (ended : s = [] ∨ s.getLast? = some '\n')
    (t : List Char) : lineList (s ++ t) = lineList s ++ lineList t := by
  -- Behind the first character of a text that ends its last line is nothing or such a text again.
  have shorter : ∀ {c : Char} {s : List Char}, c :: s = [] ∨ (c :: s).getLast? = some '\n' →
      s = [] ∧ c = '\n' ∨ s ≠ [] ∧ s.getLast? = some '\n' := by
    intro c s ended
    cases s with
    | nil => exact .inl ⟨rfl, by simpa using ended⟩
    | cons d s => exact .inr ⟨List.cons_ne_nil d s, by simpa using ended⟩
  have still_apart : ∀ {c : Char} {s : List Char}, c :: s = [] ∨ (c :: s).getLast? = some '\n' →
      (∀ s', c = '\r' → s = '\n' :: s' → False) →
      ∀ s', c = '\r' → s ++ t = '\n' :: s' → False := by
    intro c s ended apart s' hc hs
    rcases shorter ended with ⟨rfl, rfl⟩ | ⟨some_left, -⟩
    · cases hc
    · obtain ⟨d, rest, rfl⟩ := List.exists_cons_of_ne_nil some_left
      rw [List.cons_append] at hs
      exact apart rest hc (by rw [(List.cons.inj hs).1])
  fun_induction lineList s with
  | case1 => rfl
  | case2 s ih =>
    have rest_ended : s = [] ∨ s.getLast? = some '\n' := by
      cases s with
      | nil => exact .inl rfl
      | cons c s => simpa using ended
    rw [List.cons_append, List.cons_append, lineList, ih rest_ended, List.cons_append]
  | case3 c s apart ends ih =>
    have rest_ended : s = [] ∨ s.getLast? = some '\n' := (shorter ended).imp And.left And.right
    rw [List.cons_append, lineList.eq_3 _ _ (still_apart ended apart), if_pos ends, ih rest_ended,
      List.cons_append]
  | case4 c s apart ends empty ih =>
    rcases shorter ended with ⟨-, rfl⟩ | ⟨some_left, -⟩
    · exact absurd (by decide) ends
    · obtain ⟨d, rest, rfl⟩ := List.exists_cons_of_ne_nil some_left
      exact absurd empty (lineList_ne_nil d rest)
  | case5 c s apart ends l ls read ih =>
    rcases shorter ended with ⟨-, rfl⟩ | ⟨-, rest_ended⟩
    · exact absurd (by decide) ends
    · rw [List.cons_append, lineList.eq_3 _ _ (still_apart ended apart), if_neg ends,
        ih (.inr rest_ended), read]
      rfl

theorem lines_append {s : String} (ended : EndsLine s) (t : String) :
    lines (s ++ t) = lines s ++ lines t := by
  have chars : s.toList = [] ∨ s.toList.getLast? = some '\n' := by
    refine ended.imp ?_ id
    rintro rfl
    rfl
  rw [lines, lines, lines, String.toList_append, lineList_append chars, List.map_append]

/-- A line feed behind a text makes at most an empty line more. -/
theorem lineList_break (s : List Char) :
    lineList (s ++ ['\n']) = lineList s ∨ lineList (s ++ ['\n']) = lineList s ++ [[]] := by
  fun_induction lineList s with
  | case1 => exact .inr rfl
  | case2 s ih =>
    rw [List.cons_append, List.cons_append, lineList, List.cons_append]
    exact ih.imp (congrArg _) (congrArg _)
  | case3 c s apart ends ih =>
    by_cases joined : c = '\r' ∧ s = []
    · obtain ⟨rfl, rfl⟩ := joined
      exact .inl rfl
    · have apart : ∀ s', c = '\r' → s ++ ['\n'] = '\n' :: s' → False := by
        rintro s' feed same
        cases s with
        | nil => exact joined ⟨feed, rfl⟩
        | cons d s => exact apart s feed (by rw [(List.cons.inj same).1])
      rw [List.cons_append, lineList_cons_of_ends ends apart, List.cons_append]
      exact ih.imp (congrArg _) (congrArg _)
  | case4 c s apart solid empty ih =>
    obtain rfl : s = [] := by
      cases s with
      | nil => rfl
      | cons d s => exact absurd empty (lineList_ne_nil d s)
    exact .inl (lineList_cons_of_solid solid rfl)
  | case5 c s apart solid first others read ih =>
    rw [read] at ih
    rw [List.cons_append]
    exact ih.imp (lineList_cons_of_solid solid) (lineList_cons_of_solid solid)

end FlowLint.Text
