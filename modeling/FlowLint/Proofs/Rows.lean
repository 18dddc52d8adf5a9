import FlowLint.Proofs.Lines
import FlowLint.Yaml.Cursor

/-! The rows of a text: its lines as places count them, ended by `\n`, `\r\n` or a `\r` alone. The
place behind some characters stands in the row that it names (`exists_inRow`). The lines of the text
are its rows as long as no other character ends a line (`getElem?_lines`). -/

namespace FlowLint.Yaml

/-- A line as places count lines: its text and what ends it. -/
structure Row where
  text : List Char
  ending : List Char

def Row.chars (r : Row) : List Char := r.text ++ r.ending

def rows : List Char → List Row
  | [] => [⟨[], []⟩]
  | '\r' :: '\n' :: s => ⟨[], ['\r', '\n']⟩ :: rows s
  | c :: s =>
    if c = '\n' ∨ c = '\r' then ⟨[], [c]⟩ :: rows s
    else match rows s with
      | [] => []
      | r :: rest => { r with text := c :: r.text } :: rest

/-- The place behind the first `n` characters of a text. -/
def placeBehind (text : List Char) (n : Nat) : Position :=
  (Cursor.advance n ⟨text, .zero, none, text.length⟩).position

/-- The row with the number `k`, counted from zero, holds the place behind the first `n` characters:
these are the rows before it and a part of it, not the whole but in the last row. -/
def InRow (text : List Char) (n k : Nat) (row : Row) : Prop :=
  ∃ earlier later start rest, rows text = earlier ++ row :: later ∧ earlier.length = k ∧
    row.chars = start ++ rest ∧ text.take n = earlier.flatMap Row.chars ++ start ∧
    (rest = [] → later = [])

theorem InRow.getElem? {text : List Char} {n k : Nat} {row : Row} (h : InRow text n k row) :
    (rows text)[k]? = some row := by
  obtain ⟨earlier, later, -, -, split, rfl, -⟩ := h
  rw [split, List.getElem?_append_right (Nat.le_refl _), Nat.sub_self]
  rfl

variable {c : Char} {s : List Char}

theorem rows_ne_nil (s : List Char) : rows s ≠ [] := by
  fun_induction rows s with
  | case1 | case2 | case3 | case5 => exact List.cons_ne_nil _ _
  | case4 c s apart other none ih => exact absurd none ih

/-- One more character before a text is a row of its own, or it belongs to the first row. -/
theorem rows_cons (c : Char) (s : List Char) (p : Position) :
    (rows (c :: s) = ⟨[], [c]⟩ :: rows s ∧ (p.after c s.head?).line = p.line + 1) ∨
      ∃ first first' later, rows s = first :: later ∧ rows (c :: s) = first' :: later ∧
        first'.chars = c :: first.chars ∧ (p.after c s.head?).line = p.line := by
  by_cases pair : c = '\r' ∧ s.head? = some '\n'
  · obtain ⟨rfl, head⟩ := pair
    obtain ⟨s', rfl⟩ := List.head?_eq_some_iff.mp head
    exact .inr ⟨⟨[], ['\n']⟩, ⟨[], ['\r', '\n']⟩, rows s', rfl, rfl, rfl, rfl⟩
  have apart : ∀ s', c = '\r' → s = '\n' :: s' → False := by
    rintro s' rfl rfl
    exact pair ⟨rfl, rfl⟩
  by_cases ends : c = '\n' ∨ c = '\r'
  · refine .inl ⟨by rw [rows.eq_3 _ _ apart, if_pos ends], ?_⟩
    have counted : (c == '\n' || (c == '\r' && s.head? != some '\n')) = true := by
      rcases ends with rfl | rfl
      · rfl
      · simpa using pair
    rw [Position.after, if_pos counted]
  · obtain ⟨first, later, read⟩ := List.exists_cons_of_ne_nil (rows_ne_nil s)
    obtain ⟨feed, return_⟩ := not_or.mp ends
    refine .inr ⟨first, { first with text := c :: first.text }, later, read, ?_, rfl, ?_⟩
    · rw [rows.eq_3 _ _ apart, if_neg ends, read]
    · have solid : ¬ (c == '\n' || (c == '\r' && s.head? != some '\n')) = true := by
        simp [feed, return_]
      rw [Position.after, if_neg solid]
      split <;> rfl

theorem chars_ne_nil {first : Row} {later : List Row} (read : rows (c :: s) = first :: later) :
    first.chars ≠ [] := by
  rcases rows_cons c s .zero with ⟨own, -⟩ | ⟨inner, outer, rest, -, cons, chars, -⟩
  · obtain ⟨rfl, -⟩ := List.cons.inj (read.symm.trans own)
    exact List.cons_ne_nil _ _
  · obtain ⟨rfl, -⟩ := List.cons.inj (read.symm.trans cons)
    rw [chars]
    exact List.cons_ne_nil _ _

/-- The place behind some characters stands in the row that has its line for a number. -/
theorem exists_inRow {text : List Char} {n : Nat} (there : n ≤ text.length) :
    ∃ row, InRow text n (placeBehind text n).line row := by
  -- The row is counted from the line where the reading begins, for the induction on the text.
  suffices counted : ∀ (text : List Char) (n : Nat) (p : Position) (size : Nat),
      n ≤ text.length → ∃ k row, InRow text n k row ∧
        (Cursor.advance n ⟨text, p, none, size⟩).position.line = p.line + k by
    obtain ⟨k, row, here, line⟩ := counted text n .zero text.length there
    have same : (placeBehind text n).line = k := line.trans (Nat.zero_add k)
    exact ⟨row, same ▸ here⟩
  intro text
  induction text with
  | nil =>
    intro n p size there
    obtain rfl := Nat.le_zero.mp there
    exact ⟨0, ⟨[], []⟩, ⟨[], [], [], [], rfl, rfl, rfl, rfl, fun _ => rfl⟩, rfl⟩
  | cons c s ih =>
    intro n p size there
    cases n with
    | zero =>
      obtain ⟨first, later, read⟩ := List.exists_cons_of_ne_nil (rows_ne_nil (c :: s))
      exact ⟨0, first, ⟨[], later, [], first.chars, read, rfl, rfl, rfl,
        fun empty => absurd empty (chars_ne_nil read)⟩, rfl⟩
    | succ n =>
      obtain ⟨k, row, ⟨earlier, later, start, rest, read, number, chars, taken, last⟩, line⟩ :=
        ih n (p.after c s.head?) size (Nat.le_of_succ_le_succ there)
      rcases rows_cons c s p with
        ⟨own, counted⟩ | ⟨inner, outer, others, inside, cons, longer, same⟩
      · refine ⟨k + 1, row, ⟨⟨[], [c]⟩ :: earlier, later, start, rest, ?_, ?_, chars, ?_, last⟩, ?_⟩
        · rw [own, read, List.cons_append]
        · rw [List.length_cons, number]
        · rw [List.take_succ_cons, taken]
          rfl
        · rw [Cursor.advance, line, counted, Nat.add_assoc, Nat.add_comm 1]
      · have line' : (Cursor.advance (n + 1) ⟨c :: s, p, none, size⟩).position.line = p.line + k :=
          line.trans (by rw [same])
        cases earlier with
        | nil =>
          obtain ⟨rfl, rfl⟩ := List.cons.inj (inside.symm.trans read)
          refine ⟨k, outer, ⟨[], others, c :: start, rest, cons, number, ?_, ?_, last⟩, line'⟩
          · rw [longer, chars, List.cons_append]
          · rw [List.take_succ_cons, taken]
            rfl
        | cons first earlier =>
          obtain ⟨rfl, rfl⟩ := List.cons.inj (inside.symm.trans read)
          refine ⟨k, row, ⟨outer :: earlier, later, start, rest, ?_, number, chars, ?_, last⟩,
            line'⟩
          · rw [cons]
            rfl
          · rw [List.take_succ_cons, taken, List.flatMap_cons, List.flatMap_cons, longer,
              List.cons_append, List.cons_append]

/-! ### Rows and lines -/

/-- The character ends a line of a text and no row. -/
def endsLineOnly (c : Char) : Bool := Text.endsLine c && c != '\n' && c != '\r'

/-- No character of the rows up to the one with the number `k` ends a line but those that end these
rows. -/
def EvenUpTo (text : List Char) (k : Nat) : Prop :=
  ∀ row ∈ (rows text).take (k + 1), ∀ c ∈ row.text, endsLineOnly c = false

/-- A row is the line with its number if no character before its end ends a line and no row; only
the empty row behind the last end of a row is no line. -/
theorem getElem?_lineList {text : List Char} {k : Nat} {row : Row}
    (there : (rows text)[k]? = some row) (even : EvenUpTo text k) :
    (Text.lineList text)[k]? = some row.text ∨ row.chars = [] ∧ k + 1 = (rows text).length := by
  unfold EvenUpTo at even
  fun_induction rows text generalizing k row with
  | case1 =>
    cases k with
    | zero =>
      cases there
      exact .inr ⟨rfl, rfl⟩
    | succ k => cases there
  | case2 s ih =>
    cases k with
    | zero =>
      cases there
      exact .inl rfl
    | succ k =>
      rw [Text.lineList]
      refine (ih there fun row h => even row (List.mem_cons_of_mem _ h)).imp id ?_
      rintro ⟨empty, last⟩
      exact ⟨empty, congrArg Nat.succ last⟩
  | case3 c s apart ends ih =>
    have line : Text.endsLine c = true := by rcases ends with rfl | rfl <;> decide
    rw [Text.lineList_cons_of_ends line apart]
    cases k with
    | zero =>
      cases there
      exact .inl rfl
    | succ k =>
      refine (ih there fun row h => even row (List.mem_cons_of_mem _ h)).imp id ?_
      rintro ⟨empty, last⟩
      exact ⟨empty, congrArg Nat.succ last⟩
  | case4 c s apart other empty ih => exact absurd empty (rows_ne_nil s)
  | case5 c s apart other first rest read ih =>
    obtain ⟨feed, return_⟩ := not_or.mp other
    have solid : ¬ Text.endsLine c = true := by
      have only := even { first with text := c :: first.text } (by simp) c (by simp)
      simpa [endsLineOnly, feed, return_] using only
    rw [read] at ih
    have even_rest : ∀ row ∈ (first :: rest).take (k + 1), ∀ c ∈ row.text,
        endsLineOnly c = false := by
      rw [List.take_succ_cons] at even ⊢
      obtain ⟨head, tail⟩ := List.forall_mem_cons.mp even
      exact List.forall_mem_cons.mpr ⟨fun d hd => head d (List.mem_cons_of_mem _ hd), tail⟩
    cases k with
    | zero =>
      cases there
      rcases ih rfl even_rest with same | ⟨empty, last⟩
      · obtain ⟨line, lines, split⟩ : ∃ line lines, Text.lineList s = line :: lines :=
          List.exists_cons_of_ne_nil (by rintro none; rw [none] at same; cases same)
        rw [split] at same
        obtain rfl : line = first.text := Option.some.inj same
        exact .inl (by rw [Text.lineList_cons_of_solid solid split]; rfl)
      · -- Behind the character is nothing.
        obtain rfl : s = [] := by
          cases s with
          | nil => rfl
          | cons d s => exact absurd empty (chars_ne_nil read)
        have blank : first.text = [] := (List.append_eq_nil_iff.mp empty).1
        exact .inl (by rw [Text.lineList_singleton solid, blank]; rfl)
    | succ k =>
      refine (ih there even_rest).imp (fun same => ?_) id
      obtain ⟨line, lines, split⟩ : ∃ line lines, Text.lineList s = line :: lines :=
        List.exists_cons_of_ne_nil (by rintro none; rw [none] at same; cases same)
      rw [Text.lineList_cons_of_solid solid split]
      rw [split] at same
      exact same

end FlowLint.Yaml
