import FlowLint.Proofs.Scanning

/-! The text of plain scalars. A plain scalar ends before a number sign that stands behind a gap, so
no comment begins inside one (`Scan.plainScalar_takes`). -/

set_option mvcgen.warning false

namespace FlowLint.Yaml

open Std.Do

/-- Between two offsets of the text no number sign stands behind a gap, nor at the beginning of the
text. -/
def Quiet (text : List Char) (first last : Nat) : Prop :=
  ∀ before after, text = before ++ '#' :: after → first ≤ before.length → before.length < last →
    ∃ c ∈ before.getLast?, isGap c = false

variable {text run : List Char} {a b c : Nat}

theorem quiet_self (text : List Char) (a : Nat) : Quiet text a a :=
  fun _ _ _ from_ until_ => absurd until_ (Nat.not_lt.mpr from_)

theorem Quiet.trans (h : Quiet text a b) (h' : Quiet text b c) : Quiet text a c := by
  intro before after split first last
  rcases Nat.lt_or_ge before.length b with early | late
  · exact h before after split first early
  · exact h' before after split late last

/-- Every number sign among the characters stands behind one that is no gap. -/
def Calm (run : List Char) : Prop :=
  ∀ before after, run = before ++ '#' :: after → ∃ c ∈ before.getLast?, isGap c = false

theorem calm_of_not_mem (none : '#' ∉ run) : Calm run := by
  rintro before after rfl
  exact absurd (by simp) none

theorem Calm.quiet (h : Calm run) (ahead : run <+: text.drop a) :
    Quiet text a (a + run.length) := by
  intro before after split first last
  rw [split, List.drop_append_of_le_length first] at ahead
  have inside : before.drop a ++ ['#'] <+: run := by
    refine List.prefix_of_prefix_length_le ⟨after, ?_⟩ ahead ?_
    · rw [List.append_assoc, List.singleton_append]
    · rw [List.length_append, List.length_drop, List.length_singleton]
      omega
  obtain ⟨later, same⟩ := inside
  obtain ⟨c, hc, solid⟩ := h (before.drop a) later (by rw [← same]; simp)
  refine ⟨c, ?_, solid⟩
  rw [List.getLast?_drop] at hc
  split at hc
  · cases hc
  · exact hc

theorem plainRun_begins (inFlow old : Bool) (s : List Char) : plainRun inFlow old s <+: s := by
  fun_induction plainRun inFlow old s with
  | case1 | case2 | case3 | case6 => exact List.nil_prefix
  | case4 _ _ _ _ _ ih | case5 _ _ _ _ _ ih | case7 _ _ _ _ _ _ ih =>
    exact (List.prefix_cons_inj _).mpr ih

theorem isGap_of_mem_plainRun (inFlow old : Bool) (s : List Char) :
    ∀ c ∈ plainRun inFlow old s, isGap c = false := by
  fun_induction plainRun inFlow old s with
  | case1 | case2 | case3 | case6 => exact List.forall_mem_nil _
  | case4 _ _ solid _ _ ih | case5 _ _ solid _ _ ih | case7 _ _ solid _ _ _ ih =>
    exact List.forall_mem_cons.mpr ⟨Bool.eq_false_iff.mpr solid, ih⟩

/-- There are no gaps in a plain run. -/
theorem calm_plainRun (inFlow old : Bool) {s : List Char} (start : s.headD endMark ≠ '#') :
    Calm (plainRun inFlow old s) := by
  intro before after split
  cases last : before.getLast? with
  | none =>
    obtain rfl := List.getLast?_eq_none_iff.mp last
    obtain ⟨rest, whole⟩ := plainRun_begins inFlow old s
    rw [split] at whole
    exact absurd (by rw [← whole]; rfl) start
  | some c =>
    refine ⟨c, rfl, isGap_of_mem_plainRun inFlow old s c ?_⟩
    rw [split]
    exact List.mem_append_left _ (List.mem_of_getLast? last)

namespace Scan

open Cursor (Invariant)

/-- The cursor has the property, and from the offset `a` on no comment begins before it. -/
structure Plain (I : Invariant text) (a : Nat) (s : Cursor) : Prop where
  holds : I.Holds s
  quiet : Quiet text a s.position.index

variable {I : Invariant text} {s : Cursor} {n k : Nat}

theorem Plain.within (h : Plain I a s) : s.Within text := I.within h.holds

theorem Plain.advance (h : Plain (I.left n) a s) (ahead : run <+: s.rest) (calm : Calm run)
    (readable : (s.advance run.length).Readable) :
    Plain (I.left (n - run.length)) a (s.advance run.length) := by
  refine ⟨Invariant.left_advance _ h.holds readable, h.quiet.trans ?_⟩
  rw [Cursor.index_advance ahead.length_le]
  exact calm.quiet (ahead.trans h.within.ahead)

/-- Characters among which is no number sign can be passed over. -/
theorem Plain.skip (h : Plain I a s) (none : '#' ∉ s.rest.take n)
    (readable : (s.advance n).Readable) : Plain I a (s.advance n) := by
  refine ⟨I.advance n h.holds readable, h.quiet.trans ?_⟩
  have ahead := List.take_prefix n s.rest
  have moved := (calm_of_not_mem none).quiet (ahead.trans h.within.ahead)
  rwa [← Cursor.index_advance ahead.length_le, List.length_take, Cursor.advance_min] at moved

variable (I a)

theorem takeWhile_plain (p : Char → Bool) (passed : p '#' = false) :
    Gives text (Plain I a) (takeWhile p) fun _ => Plain I a := by
  refine (takeWhile_gives (fun _ => Plain.within) p).weaken (fun _ => id) ?_
  rintro run _ ⟨s₁, h, rfl, rfl, readable⟩
  refine h.skip (fun among => ?_) readable
  rw [(List.prefix_iff_eq_take.mp (List.takeWhile_prefix p)).symm] at among
  simpa [passed] using List.mem_takeWhile_imp among

theorem position_plain : Gives text (Plain (I.left n) a) position
    fun p s => Plain (I.left n) a s ∧ I.IsPlace p ∧ Quiet text a p.index := by
  mvcgen [position]
  next h => exact ⟨h, ⟨_, h.holds.1, rfl⟩, h.quiet⟩

theorem column_plain : Gives text (Plain I a) column fun _ => Plain I a := by
  mvcgen [column]

theorem lineBreak_plain : Gives text (Plain I a) lineBreak fun _ => Plain I a :=
  lineBreak_gives (fun _ => Plain.within) fun _ _ h none readable => h.skip none readable

/-- A plain scalar with some characters begins at the cursor. -/
structure BeginsPlain (inFlow old : Bool) (s : Cursor) : Prop where
  head : s.rest.headD endMark ≠ '#'
  run : plainRun inFlow old s.rest ≠ []

theorem plainPart_gives (inFlow old : Bool) (first : Prop) :
    Gives text (fun s => Plain (I.left n) a s ∧ s.rest.headD endMark ≠ '#' ∧
        (first → plainRun inFlow old s.rest ≠ [])) (plainPart inFlow old)
      fun part s => Plain (I.left (n - part.length)) a s ∧ (first → part ≠ []) := by
  have skip_here (run : List Char) : Gives text (fun s => Plain (I.left n) a s ∧
      run <+: s.rest ∧ Calm run ∧ (first → run ≠ [])) (skip run.length)
      fun _ s => Plain (I.left (n - run.length)) a s ∧ (first → run ≠ []) := by
    refine (skip_gives (fun _ h => h.1.within) run.length).weaken (fun _ => id) ?_
    rintro _ _ ⟨s₁, ⟨h, ahead, calm, begun⟩, rfl, readable⟩
    exact ⟨h.advance ahead calm readable, begun⟩
  have peekAt_here (run : List Char) := peekAt_gives (P := fun s => Plain (I.left n) a s ∧
    run <+: s.rest ∧ Calm run ∧ (first → run ≠ [])) fun _ h => h.1.within
  mvcgen [plainPart, skip_here, peekAt_here]
  next s h run =>
    exact ⟨h.1, plainRun_begins inFlow old s.rest, calm_plainRun inFlow old h.2.1, h.2.2⟩
  all_goals exact (‹_ ∧ _ = _›).1

theorem plainBreaks_gives (fuel : Nat) (breaks : List Char) :
    Gives text (Plain I a) (plainBreaks fuel breaks) fun _ => Plain I a := by
  have within : ∀ s, Plain I a s → s.Within text := fun _ => Plain.within
  have peek_here := peek_gives within
  have seesSeparator_here := seesSeparator_gives within
  have lineBreak_here := lineBreak_plain a I
  have skip_here : Gives text (fun s => Plain I a s ∧ '#' ∉ s.rest.take 1) (skip 1)
      fun _ => Plain I a := by
    refine (skip_gives (fun _ h => h.1.within) 1).weaken (fun _ => id) ?_
    rintro _ _ ⟨s₁, ⟨h, none⟩, rfl, readable⟩
    exact h.skip none readable
  induction fuel generalizing breaks with
  | zero => mvcgen [plainBreaks]
  | succ fuel ih =>
    mvcgen [plainBreaks, skip_here, peek_here, lineBreak_here, seesSeparator_here, ih]
    next c space s h =>
      exact ⟨h.1, not_mem_take_one h.2 (by rintro rfl; simp at space)⟩
    all_goals exact (‹_ ∧ _›).1

theorem plainSpaces_gives : Gives text (Plain I a) plainSpaces fun _ => Plain I a := by
  have within : ∀ s, Plain I a s → s.Within text := fun _ => Plain.within
  have takeWhile_here := takeWhile_plain a I (· == ' ') rfl
  have peek_here := peek_gives within
  have lineBreak_here := lineBreak_plain a I
  have seesSeparator_here := seesSeparator_gives within
  have plainBreaks_here := plainBreaks_gives a I
  mvcgen [plainSpaces, takeWhile_here, peek_here, lineBreak_here, seesSeparator_here,
    plainBreaks_here, bound]
  all_goals exact (‹_ ∧ _›).1

/-- Where a plain scalar stops the spaces and comments behind it have not begun. If it is known that
one begins at the cursor, a character is taken. -/
theorem plainParts_gives (inFlow old : Bool) (indent fuel : Nat) (done : Scanned)
    (spaces : List Char) (stop : I.IsPlace done.stop) (quiet : Quiet text a done.stop.index)
    (few : k ≤ 1) :
    Gives text (fun s => Plain (I.left n) a s ∧ (k = 1 → fuel ≠ 0 ∧ BeginsPlain inFlow old s))
      (plainParts inFlow old indent fuel done spaces) fun scanned s =>
        (I.left (n - k)).Holds s ∧ I.IsPlace scanned.stop ∧ Quiet text a scanned.stop.index := by
  induction fuel generalizing done spaces n k with
  | zero =>
    mvcgen [plainParts]
    next h =>
      have none : k = 0 := by grind
      exact ⟨by simpa [none] using h.1.holds, stop, quiet⟩
  | succ fuel ih =>
    unfold plainParts
    refine (peek_gives (fun _ h => h.1.within)).bind fun c => ?_
    split
    next sign =>
      mvcgen
      next h =>
        have none : k = 0 := by grind [BeginsPlain.head]
        exact ⟨by simpa [none] using h.1.1.holds, stop, quiet⟩
    next other =>
      have begins : ∀ s, (Plain (I.left n) a s ∧ (k = 1 → fuel + 1 ≠ 0 ∧
          BeginsPlain inFlow old s)) ∧ s.rest.headD endMark = c →
          Plain (I.left n) a s ∧ s.rest.headD endMark ≠ '#' ∧
            (k = 1 → plainRun inFlow old s.rest ≠ []) := by
        rintro s ⟨⟨plain, begins⟩, rfl⟩
        exact ⟨plain, by simpa using other, fun first => (begins first).2.run⟩
      refine Meets.of_imp ?_ begins
      refine (plainPart_gives a I inFlow old (k = 1)).bind fun part => ?_
      split
      next empty =>
        mvcgen
        next h =>
          have none : k = 0 := by grind
          exact ⟨Cursor.Invariant.left_mono h.1.holds (by omega), stop, quiet⟩
      next some_read =>
        have less : n - part.length ≤ n - k := by
          have := List.length_pos_iff.mpr (by simpa using some_read)
          omega
        refine Meets.of_imp ?_ fun s h => h.1
        have position_here := position_plain (n := n - part.length) a I
        have column_here := column_plain a (I.left (n - part.length))
        have peek_here := peek_gives (P := Plain (I.left (n - part.length)) a) fun _ => Plain.within
        have plainSpaces_here := plainSpaces_gives a (I.left (n - part.length))
        have rest_here (done : Scanned) (spaces : List Char) (stop : I.IsPlace done.stop)
            (quiet : Quiet text a done.stop.index) :
            Gives text (Plain (I.left (n - part.length)) a)
              (plainParts inFlow old indent fuel done spaces) fun scanned s =>
              (I.left (n - k)).Holds s ∧ I.IsPlace scanned.stop ∧
                Quiet text a scanned.stop.index :=
          (ih done spaces stop quiet (Nat.zero_le 1)).weaken (fun s h => ⟨h, nofun⟩)
            fun _ _ h => ⟨Cursor.Invariant.left_mono h.1 less, h.2⟩
        mvcgen [position_here, plainSpaces_here, peek_here, column_here, rest_here]
        all_goals grind [Plain.holds, Cursor.Invariant.left_mono]

theorem plainScalar_takes (inFlow old : Bool) (indent : Nat) (keysAllowed : Bool) :
    Gives text (fun s => (I.left n).Holds s ∧ BeginsPlain inFlow old s ∧ s.position.index = a)
      (plainScalar inFlow old indent keysAllowed) fun scanned s =>
        (I.left (n - 1)).Holds s ∧ I.IsPlace scanned.stop ∧ Quiet text a scanned.stop.index := by
  have plainParts_here := plainParts_gives (n := n) (k := 1) a I inFlow old
  mvcgen [plainScalar, plainParts_here, bound, position]
  next h => exact ⟨_, h.1.1, rfl⟩
  next h => exact h.2.2 ▸ quiet_self text _
  next h => exact ⟨⟨h.1, h.2.2 ▸ quiet_self text _⟩, Nat.succ_ne_zero _, h.2.1⟩

end Scan

/-! ### Tokens -/

def Token.Kind.isPlain : Token.Kind → Bool
  | .scalar _ .plain => true
  | _ => false

theorem Token.Kind.isPlain_scalar {value : String} {style : ScalarStyle} (other : style ≠ .plain) :
    (Kind.scalar value style).isPlain = false := by
  cases style <;> first | rfl | exact absurd rfl other

/-- Inside the token no comment begins if it is a plain scalar. -/
def Token.Quiet (text : List Char) (t : Token) : Prop :=
  t.kind.isPlain = true → Yaml.Quiet text t.start.index t.stop.index

theorem Token.quiet_of_not_plain {t : Token} (h : t.kind.isPlain = false) : t.Quiet text :=
  fun plain => absurd plain (by rw [h]; decide)

end FlowLint.Yaml
