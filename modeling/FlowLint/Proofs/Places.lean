import FlowLint.Proofs.Rows
import FlowLint.Proofs.Scanning

/-! Where the cursor of a text stands: behind some of its characters (`Cursor.Invariant.ofText`). -/

namespace FlowLint.Yaml

variable {text : List Char} {n : Nat}

theorem placeBehind_succ (text : List Char) (n : Nat) {c : Char} {later : List Char}
    (ahead : text.drop n = c :: later) :
    placeBehind text (n + 1) = (placeBehind text n).after c later.head? := by
  have rest := Cursor.rest_advance n ⟨text, .zero, none, text.length⟩
  rw [ahead] at rest
  rw [placeBehind, Cursor.advance_add, Cursor.advance, rest, placeBehind]
  rfl

/-- The cursor stands behind so many characters of the text; it may be that not all characters
behind it can be read. -/
structure Cursor.Behind (text : List Char) (n : Nat) (s : Cursor) : Prop where
  short : n ≤ text.length
  position : s.position = placeBehind text n
  ahead : s.rest <+: text.drop n
  whole : s.barrier = none → s.rest = text.drop n

/-- A cursor that moves on stands behind more of the text, if something can be read there. -/
theorem Cursor.Behind.advance {s : Cursor} (h : s.Behind text n) (m : Nat)
    (readable : (s.advance m).Readable) : ∃ n, (s.advance m).Behind text n := by
  induction m generalizing s n with
  | zero => exact ⟨n, h⟩
  | succ m ih =>
    rw [Cursor.advance] at readable ⊢
    cases found : s.rest with
    | nil => exact ⟨n, h⟩
    | cons c rest =>
      rw [found] at readable
      obtain ⟨later, ahead⟩ : ∃ later, text.drop n = c :: later ∧ rest <+: later := by
        obtain ⟨behind, split⟩ := h.ahead
        rw [found] at split
        exact ⟨rest ++ behind, split.symm, List.prefix_append rest behind⟩
      have whole : s.barrier = none → rest = later := by
        intro ended
        have same := h.whole ended
        rw [found, ahead.1] at same
        exact (List.cons.inj same).2
      have next : rest.head? = later.head? := by
        cases rest with
        | cons d rest =>
          obtain ⟨behind, split⟩ := ahead.2
          rw [← split]
          rfl
        | nil =>
          rw [Cursor.Readable, Cursor.rest_advance, Cursor.barrier_advance, List.drop_nil]
            at readable
          rw [whole (readable.resolve_left fun some_left => some_left rfl)]
      have behind : text.drop (n + 1) = later := by
        rw [← List.tail_drop, ahead.1, List.tail_cons]
      refine ih ⟨?_, ?_, behind ▸ ahead.2, fun ended => behind ▸ whole ended⟩ readable
      · have long := congrArg List.length ahead.1
        rw [List.length_drop, List.length_cons] at long
        omega
      · rw [placeBehind_succ text n ahead.1, ← h.position, next]

theorem Cursor.behind_ofText (text : List Char) : (Cursor.ofText text).Behind text 0 := by
  unfold ofText
  split
  · exact ⟨Nat.zero_le _, rfl, List.prefix_rfl, fun _ => rfl⟩
  · exact ⟨Nat.zero_le _, rfl, List.take_prefix _ text, nofun⟩

namespace Cursor.Invariant

/-- The cursor stands in the text behind some of its characters. -/
def ofText (text : List Char) : Invariant text where
  Holds s := s.Within text ∧ ∃ n, s.Behind text n
  within h := h.1
  advance m h readable := ⟨h.1.advance m, h.2.elim fun _ behind => behind.advance m readable⟩

theorem holds_ofText (text : List Char) : (ofText text).Holds (.ofText text) :=
  ⟨within_ofText text, 0, behind_ofText text⟩

theorem exists_placeBehind {p : Position} (h : (ofText text).IsPlace p) :
    ∃ n ≤ text.length, p = placeBehind text n := by
  obtain ⟨s, ⟨-, n, behind⟩, rfl⟩ := h
  exact ⟨n, behind.short, behind.position⟩

end Cursor.Invariant

end FlowLint.Yaml
