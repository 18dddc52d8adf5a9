import FlowLint.Proofs.Readers
import FlowLint.Yaml.Token.Directive

/-! What readers of characters do. A reader moves its cursor on in the text, and the places that it
gives are those of cursors on its way (`Scan.Keeps`); one that reads a token takes a character at
least, so that fewer are left (`Cursor.Invariant.left`). A fault that is not one of the text comes
from a number in it that is out of range: the code point that an escape names, or the digits of a
version (`Fault.Explained`). Each reader does what the readers do that it is made of; only those of
escapes and of versions need more. -/

set_option mvcgen.warning false

namespace FlowLint.Yaml

open Std.Do

/-- The number that hexadecimal digits denote. -/
def hexNumeral (digits : List Char) : Nat :=
  digits.foldl (fun v c => 16 * v + (hexValue? c).getD 0) 0

/-- Somewhere in the text stands a backslash with a letter and the hexadecimal digits of a code
point. -/
def Escapes (text : List Char) (code : Nat) : Prop :=
  ∃ letter digits, '\\' :: letter :: digits <:+: text ∧
    escapeLengths.lookup letter = some digits.length ∧ (∀ c ∈ digits, (hexValue? c).isSome) ∧
    hexNumeral digits = code

/-- Somewhere in the text stands `%YAML` and, behind spaces, digits and points, a run of digits. -/
def NumbersVersion (text : List Char) (count : Nat) : Prop :=
  ∃ between digits, "%YAML".toList ++ between ++ digits <:+: text ∧
    (∀ c ∈ between, c = ' ' ∨ c = '.' ∨ (asciiDigit? c).isSome) ∧
    (∀ c ∈ digits, (asciiDigit? c).isSome) ∧ digits.length = count

/-- A fault that is not one of the text comes from a number in the text that is out of range. -/
def Fault.Explained (text : List Char) : Fault → Prop
  | .grammar _ _ | .character _ _ => True
  | .codePoint code => 0x110000 ≤ code ∧ Escapes text code
  | .longNumber count => Text.Integer.maxDigits < count ∧ NumbersVersion text count

theorem Fault.explained_of_isOfText {text : List Char} {f : Fault} (h : f.isOfText = true) :
    f.Explained text := by
  cases f with
  | grammar | character => trivial
  | codePoint | longNumber => cases h

/-! ### Cursors -/

/-- The cursor stands in the text where it says, and what stops it is a fault of the text. -/
structure Cursor.Within (text : List Char) (s : Cursor) : Prop where
  ahead : s.rest <+: text.drop s.position.index
  barrier : ∀ fault ∈ s.barrier, fault.isOfText = true

/-- The text ends at the cursor or has a character there. -/
def Cursor.Readable (s : Cursor) : Prop := s.rest ≠ [] ∨ s.barrier = none

namespace Cursor

variable {text : List Char}

theorem within_ofText (text : List Char) : (ofText text).Within text := by
  unfold ofText
  split
  · exact ⟨List.prefix_rfl, by simp⟩
  · exact ⟨List.take_prefix _ text, by simp [Fault.isOfText, Fault.raised?]⟩

theorem Within.rest {s : Cursor} (h : s.Within text) : s.rest <:+: text :=
  h.ahead.isInfix.trans (List.drop_suffix _ text).isInfix

@[simp] theorem rest_advance (n : Nat) (s : Cursor) : (s.advance n).rest = s.rest.drop n := by
  induction n generalizing s with
  | zero => rfl
  | succ n ih =>
    rw [advance]
    split
    next empty => simp [empty]
    next c rest found => rw [ih, found, List.drop_succ_cons]

theorem index_after (p : Position) (c : Char) (next : Option Char) :
    (p.after c next).index = p.index + 1 := by
  unfold Position.after
  split
  · rfl
  · split <;> rfl

/-- A cursor that moves over so many characters is so many places further. -/
theorem index_advance {n : Nat} {s : Cursor} (there : n ≤ s.rest.length) :
    (s.advance n).position.index = s.position.index + n := by
  induction n generalizing s with
  | zero => rfl
  | succ n ih =>
    rw [advance]
    split
    next empty => simp [empty] at there
    next c rest found =>
      rw [found, List.length_cons] at there
      rw [ih (Nat.le_of_succ_le_succ there), index_after, Nat.add_right_comm, Nat.add_assoc]

@[simp] theorem barrier_advance (n : Nat) (s : Cursor) : (s.advance n).barrier = s.barrier := by
  induction n generalizing s with
  | zero => rfl
  | succ n ih =>
    rw [advance]
    split
    · rfl
    · rw [ih]

theorem cons_rest_advance {s : Cursor} {c : Char} (head : s.rest.headD endMark = c)
    (there : c ≠ endMark) : c :: (s.advance 1).rest = s.rest := by
  rw [rest_advance]
  cases rest : s.rest with
  | nil => exact absurd (by simpa [rest] using head.symm) there
  | cons c' rest' =>
    obtain rfl : c' = c := by simpa [rest] using head
    rfl

theorem Within.advance {s : Cursor} (h : s.Within text) (n : Nat) : (s.advance n).Within text where
  ahead := by
    rw [rest_advance]
    rcases Nat.le_total n s.rest.length with there | beyond
    · rw [index_advance there, ← List.drop_drop]
      exact h.ahead.drop n
    · rw [List.drop_eq_nil_of_le beyond]
      exact List.nil_prefix
  barrier := by
    rw [barrier_advance]
    exact h.barrier

theorem advance_add (m n : Nat) (s : Cursor) : s.advance (m + n) = (s.advance m).advance n := by
  induction m generalizing s with
  | zero => rw [Nat.zero_add, advance]
  | succ m ih =>
    rw [Nat.succ_add, advance, advance]
    split
    next empty =>
      cases n with
      | zero => rfl
      | succ n => simp only [advance, empty]
    next => exact ih _

/-- A cursor stays at the end of its text. -/
theorem advance_min (n : Nat) (s : Cursor) :
    s.advance (min n s.rest.length) = s.advance n := by
  induction n generalizing s with
  | zero => rw [Nat.zero_min]
  | succ n ih =>
    cases found : s.rest with
    | nil => simp [advance, found]
    | cons c rest =>
      rw [List.length_cons, Nat.succ_min_succ, advance, advance, found]
      exact ih { s with rest, position := s.position.after c rest.head? }

/-- A property that a cursor of the text keeps when it moves on to where something can be read. -/
structure Invariant (text : List Char) where
  Holds : Cursor → Prop
  within : ∀ {s : Cursor}, Holds s → s.Within text
  advance : ∀ {s : Cursor} (n : Nat), Holds s → (s.advance n).Readable → Holds (s.advance n)

namespace Invariant

variable {I : Invariant text} {m n : Nat} {s : Cursor} {p : Position}

/-- The place of a cursor with the property. -/
def IsPlace (I : Invariant text) (p : Position) : Prop := ∃ s, I.Holds s ∧ s.position = p

/-- At most so many characters are left besides. -/
def left (I : Invariant text) (n : Nat) : Invariant text where
  Holds s := I.Holds s ∧ s.rest.length ≤ n
  within h := I.within h.1
  advance k h readable := by
    refine ⟨I.advance k h.1 readable, ?_⟩
    rw [rest_advance, List.length_drop]
    exact (Nat.sub_le _ _).trans h.2

theorem left_mono (h : (I.left m).Holds s) (le : m ≤ n) : (I.left n).Holds s :=
  ⟨h.1, h.2.trans le⟩

theorem left_advance (k : Nat) (h : (I.left n).Holds s) (readable : (s.advance k).Readable) :
    (I.left (n - k)).Holds (s.advance k) := by
  refine ⟨I.advance k h.1 readable, ?_⟩
  rw [rest_advance, List.length_drop]
  exact Nat.sub_le_sub_right h.2 k

theorem IsPlace.of_left (h : (I.left n).IsPlace p) : I.IsPlace p := by
  obtain ⟨s, hs, rfl⟩ := h
  exact ⟨s, hs.1, rfl⟩

end Invariant

end Cursor

namespace Scan

open Cursor (Invariant)

variable {text : List Char} {α β : Type} {s₀ : Cursor} {I : Invariant text} {P : Cursor → Prop}
  {n : Nat}

/-- The reader does what is said of it, and the text explains its faults. -/
abbrev Gives (text : List Char) (P : Cursor → Prop) (r : Scan α) (Q : α → Cursor → Prop) : Prop :=
  Meets P r Q (Fault.Explained text)

/-- The reader keeps what holds of the cursor. -/
abbrev Keeps (I : Invariant text) (r : Scan α) : Prop := Gives text I.Holds r fun _ => I.Holds

theorem throw_gives {Q : α → Cursor → Prop} (e : Fault) :
    Gives text (fun _ => e.Explained text) (throw e : Scan α) Q := throw_meets e

/-! ### Single characters

A reader that looks at characters does not move the cursor, and one that passes over some leaves it
where something can be read. -/

section Primitive

variable (within : ∀ s, P s → s.Within text)
include within

theorem peekAt_reads (n : Nat) :
    Gives text P (peekAt n) fun c s => P s ∧ (s.rest.drop n).headD endMark = c ∧
      (s.rest.drop n ≠ [] ∨ s.barrier = none) := by
  mvcgen [peekAt, throw_gives, -Spec.throw_MonadExcept]
  next h _ _ _ _ found => exact ⟨h, by rw [found]; rfl, .inl (by simp [found])⟩
  next h ended found => exact ⟨h, by rw [found]; rfl, .inr ended⟩
  next s h fault same _ => exact Fault.explained_of_isOfText ((within s h).barrier fault same)

theorem peekAt_gives (n : Nat) :
    Gives text P (peekAt n) fun c s => P s ∧ (s.rest.drop n).headD endMark = c :=
  (peekAt_reads within n).weaken (fun _ => id) fun _ _ h => ⟨h.1, h.2.1⟩

theorem peek_gives : Gives text P peek fun c s => P s ∧ s.rest.headD endMark = c :=
  peekAt_gives within 0

theorem skip_gives (n : Nat) :
    Gives text P (skip n) fun _ s => ∃ s₁, P s₁ ∧ s = s₁.advance n ∧ s.Readable := by
  have moved : ∀ s, (∃ s₁, P s₁ ∧ s = s₁.advance n) → s.Within text := by
    rintro _ ⟨s₁, h, rfl⟩
    exact (within s₁ h).advance n
  have peek_here := peekAt_reads moved 0
  mvcgen [skip, peek, peek_here]
  · exact ⟨_, ‹_›, rfl⟩
  next h =>
    obtain ⟨⟨s₁, h₁, same⟩, -, readable⟩ := h
    exact ⟨s₁, h₁, same, readable⟩

theorem takeWhile_gives (p : Char → Bool) :
    Gives text P (takeWhile p) fun run s => ∃ s₁, P s₁ ∧ run = s₁.rest.takeWhile p ∧
      s = s₁.advance run.length ∧ s.Readable := by
  have skip_here (run : List Char) := skip_gives (P := fun s => P s ∧ run = s.rest.takeWhile p)
    (fun s h => within s h.1) run.length
  mvcgen [takeWhile, skip_here]
  next h =>
    obtain ⟨s₁, ⟨h₁, run⟩, moved⟩ := h
    exact ⟨s₁, h₁, run, moved⟩

theorem sees_gives (t : List Char) :
    Gives text P (sees t) fun seen s => P s ∧ seen = t.isPrefixOf s.rest := by
  have peekAt_here := peekAt_gives within
  mvcgen [sees, peekAt_here]
  all_goals exact (‹_ ∧ _›).1

theorem seesMarker_gives (t : List Char) : Gives text P (seesMarker t) fun _ => P := by
  have sees_here := sees_gives within
  have peekAt_here := peekAt_gives within
  mvcgen [seesMarker, sees_here, peekAt_here]
  all_goals exact (‹_ ∧ _›).1

theorem seesSeparator_gives : Gives text P seesSeparator fun _ => P := by
  have seesMarker_here := seesMarker_gives within
  mvcgen [seesSeparator, seesMarker_here]

omit within in
theorem not_mem_take_one {s : Cursor} {c : Char} (head : s.rest.headD endMark = c)
    (other : c ≠ '#') : '#' ∉ s.rest.take 1 := by
  cases rest : s.rest with
  | nil => simp
  | cons c' rest' =>
    rw [rest, List.headD_cons] at head
    simpa [head] using other.symm

/-- A line end is passed over without a number sign. -/
theorem lineBreak_gives
    (passes : ∀ s n, P s → '#' ∉ s.rest.take n → (s.advance n).Readable → P (s.advance n)) :
    Gives text P lineBreak fun _ => P := by
  have peek_here := peek_gives within
  have sees_here (c : Char) := sees_gives (P := fun s => P s ∧ s.rest.headD endMark = c)
    fun s h => within s h.1
  have skip_here (n : Nat) :
      Gives text (fun s => P s ∧ '#' ∉ s.rest.take n) (skip n) fun _ => P := by
    refine (skip_gives (fun s h => within s h.1) n).weaken (fun _ => id) ?_
    rintro _ _ ⟨s₁, ⟨h, none⟩, rfl, readable⟩
    exact passes s₁ n h none readable
  mvcgen [lineBreak, skip_here, peek_here, sees_here]
  next c breaks _ _ seen s h =>
    obtain ⟨⟨here, head⟩, rfl⟩ := h
    refine ⟨here, ?_⟩
    split
    next pair =>
      obtain ⟨rest, same⟩ := List.isPrefixOf_iff_prefix.mp pair
      rw [← same]
      simp
    next => exact not_mem_take_one head (by rintro rfl; simp at breaks)
  next c _ breaks s h =>
    exact ⟨h.1, not_mem_take_one h.2 (by rintro rfl; simp [isBreak] at breaks)⟩
  · exact (‹_ ∧ _›).1

end Primitive

@[local spec]
theorem peekAt_keeps (n : Nat) : Keeps I (peekAt n) :=
  (peekAt_gives (fun _ => I.within) n).weaken (fun _ => id) fun _ _ => And.left

@[local spec]
theorem peek_keeps : Keeps I peek := peekAt_keeps 0

@[local spec]
theorem position_keeps : Gives text I.Holds position fun p s => I.Holds s ∧ I.IsPlace p := by
  mvcgen [position]
  exact ⟨‹_›, _, ‹_›, rfl⟩

theorem position_still : Keeps I position := by
  mvcgen [position, -position_keeps]

@[local spec]
theorem column_keeps : Keeps I column := by
  mvcgen [column]

@[local spec]
theorem bound_keeps : Keeps I bound := by
  mvcgen [bound]

@[local spec]
theorem seesSeparator_keeps : Keeps I seesSeparator := seesSeparator_gives fun _ => I.within

@[local spec]
theorem skip_keeps (n : Nat) : Keeps I (skip n) := by
  refine (skip_gives (fun _ => I.within) n).weaken (fun _ => id) ?_
  rintro _ _ ⟨s₁, h, rfl, readable⟩
  exact I.advance n h readable

/-- So many characters are taken, if they are there. -/
theorem skip_takes (k : Nat) :
    Gives text (I.left n).Holds (skip k) fun _ => (I.left (n - k)).Holds := by
  refine (skip_gives (fun _ => (I.left n).within) k).weaken (fun _ => id) ?_
  rintro _ _ ⟨s₁, h, rfl, readable⟩
  exact Invariant.left_advance k h readable

/-- A reader that takes characters where so many are left keeps what holds of the cursor. -/
theorem Keeps.of_takes {r : Scan α}
    (h : ∀ n, Gives text (I.left n).Holds r fun _ => (I.left (n - 1)).Holds) : Keeps I r :=
  Meets.of_exists (fun n => (h n).weaken (fun _ => id) fun _ _ kept => kept.1)
    fun s hs => ⟨s.rest.length, hs, Nat.le_refl _⟩

@[local spec]
theorem takeWhile_keeps (p : Char → Bool) : Keeps I (takeWhile p) := by
  mvcgen [takeWhile]

@[local spec]
theorem skipWhile_keeps (p : Char → Bool) : Keeps I (skipWhile p) := by
  mvcgen [skipWhile]

@[local spec]
theorem lineBreak_keeps : Keeps I lineBreak :=
  lineBreak_gives (fun _ => I.within) fun _ n h _ => I.advance n h

@[local spec]
theorem failHere_gives {Q : α → Cursor → Prop} (task : Task) (start : Position)
    (problem : Problem) : Gives text P (failHere task start problem) Q := by
  mvcgen [failHere, position, throw_gives, -position_keeps, -Spec.throw_MonadExcept]

/-! ### Scalars between quotes -/

@[local spec]
theorem quotedBreaks_keeps (start : Position) (fuel : Nat) (breaks : List Char) :
    Keeps I (quotedBreaks start fuel breaks) := by
  induction fuel generalizing breaks with
  | zero => mvcgen [quotedBreaks]
  | succ fuel ih => mvcgen [quotedBreaks, ih]

@[local spec]
theorem quotedGap_keeps (start : Position) : Keeps I (quotedGap start) := by
  mvcgen [quotedGap]

theorem value_gives (within : ∀ s, P s → s.Within text) (task : Task) (start : Position)
    (wanted : Char → Problem) (place : Position) (left k v : Nat) :
    Gives text P (hexNumber.value task start wanted place left k v) fun code s => P s ∧
      ∃ digits, digits <+: s.rest.drop k ∧ digits.length = left ∧
        (∀ c ∈ digits, (hexValue? c).isSome) ∧
        digits.foldl (fun v c => 16 * v + (hexValue? c).getD 0) v = code := by
  induction left generalizing P k v with
  | zero =>
    mvcgen [hexNumber.value]
    exact ⟨‹_›, [], List.nil_prefix, rfl, by simp, rfl⟩
  | succ left ih =>
    rw [hexNumber.value]
    refine (peekAt_gives within k).bind fun c => ?_
    cases found : hexValue? c with
    | none => mvcgen [throw_gives, -Spec.throw_MonadExcept]
    | some d =>
      refine (ih (fun s h => within s h.1) (k + 1) (16 * v + d)).weaken (fun _ => id) ?_
      rintro code s ⟨⟨here, head⟩, digits, ahead, length, hex, value⟩
      refine ⟨here, c :: digits, ?_, by simp [length], ?_, ?_⟩
      · cases rest : s.rest.drop k with
        | nil =>
          obtain rfl : endMark = c := by simpa [rest] using head
          cases found
        | cons c' rest' =>
          obtain rfl : c' = c := by simpa [rest] using head
          rw [← List.tail_drop, rest] at ahead
          exact (List.prefix_cons_inj c').mpr ahead
      · simpa [found] using hex
      · simpa [found] using value

/-- The digits of the number stand at the cursor. -/
theorem hexNumber_gives (within : ∀ s, P s → s.Within text) (task : Task) (start : Position)
    (wanted : Char → Problem) (n : Nat) :
    Gives text P (hexNumber task start wanted n) fun code s => P s ∧
      ∃ digits, digits <+: s.rest ∧ digits.length = n ∧ (∀ c ∈ digits, (hexValue? c).isSome) ∧
        hexNumeral digits = code := by
  have value_here := value_gives within task start wanted
  mvcgen [hexNumber, position, value_here, -position_keeps]

@[local spec]
theorem hexNumber_keeps (task : Task) (start : Position) (wanted : Char → Problem) (n : Nat) :
    Keeps I (hexNumber task start wanted n) :=
  (hexNumber_gives (fun _ => I.within) task start wanted n).weaken (fun _ => id) fun _ _ => And.left

/-- A code point that does not exist is one that the text escapes, since the reader is called behind
a backslash. -/
theorem escape_gives (start : Position) :
    Gives text (fun s => I.Holds s ∧ '\\' :: s.rest <:+: text) (escape start)
      fun _ => I.Holds := by
  have within : ∀ s, I.Holds s ∧ '\\' :: s.rest <:+: text → s.Within text :=
    fun _ h => I.within h.1
  unfold escape
  refine (peek_gives within).bind fun c => ?_
  split
  next => exact Meets.of_imp (by mvcgen) fun _ h => h.1.1
  next n _ length =>
    have there : c ≠ endMark := by
      rintro rfl
      cases length
    have skip_here : Gives text
        (fun s => (I.Holds s ∧ '\\' :: s.rest <:+: text) ∧ s.rest.headD endMark = c) (skip 1)
        fun _ s => I.Holds s ∧ '\\' :: c :: s.rest <:+: text := by
      refine (skip_gives (fun s h => within s h.1) 1).weaken (fun _ => id) ?_
      rintro _ _ ⟨s₁, ⟨⟨holds, behind⟩, head⟩, rfl, readable⟩
      exact ⟨I.advance 1 holds readable, by rwa [Cursor.cons_rest_advance head there]⟩
    refine skip_here.bind fun _ => ?_
    refine (hexNumber_gives (fun _ h => I.within h.1) _ _ _ n).bind fun code => ?_
    mvcgen [throw_gives, -Spec.throw_MonadExcept]
    next tooLarge s h =>
      obtain ⟨⟨-, escaped⟩, digits, ⟨later, ahead⟩, count, hex, value⟩ := h
      refine ⟨tooLarge, c, digits, ?_, by rw [length, count], hex, value⟩
      exact (List.IsInfix.trans ⟨[], later, by simp [← ahead]⟩ escaped)
    next h => exact h.1.1
  next => exact Meets.of_imp (by mvcgen) fun _ h => h.1.1

/-- A backslash is passed over before what it escapes is read. -/
@[local spec]
theorem quotedRun_keeps (double : Bool) (start : Position) (fuel : Nat) (done : List Char) :
    Keeps I (quotedRun double start fuel done) := by
  induction fuel generalizing done with
  | zero => mvcgen [quotedRun]
  | succ fuel ih =>
    rw [quotedRun]
    refine (takeWhile_keeps _).bind fun run => ?_
    refine (peek_gives fun _ => I.within).bind fun c => ?_
    have within : ∀ s, I.Holds s ∧ s.rest.headD endMark = c → s.Within text :=
      fun _ h => I.within h.1
    have unmoved : Gives text (fun s => I.Holds s ∧ s.rest.headD endMark = c)
        (pure (!double && c == '\'') <&&> (do return (← peekAt 1) == '\''))
        fun _ s => I.Holds s ∧ s.rest.headD endMark = c := by
      have peekAt_here := peekAt_gives within
      mvcgen [andM, peekAt_here, -peekAt_keeps]
      exact (‹_ ∧ _›).1
    refine unmoved.bind fun doubled => ?_
    split
    · exact Meets.of_imp (by mvcgen [ih]) fun _ h => h.1
    split
    · exact Meets.of_imp (by mvcgen [ih]) fun _ h => h.1
    split
    next escaped =>
      obtain rfl : c = '\\' := by simpa using (Bool.and_eq_true_iff.mp escaped).2
      have skip_here : Gives text (fun s => I.Holds s ∧ s.rest.headD endMark = '\\') (skip 1)
          fun _ s => I.Holds s ∧ '\\' :: s.rest <:+: text := by
        refine (skip_gives within 1).weaken (fun _ => id) ?_
        rintro _ _ ⟨s₁, ⟨holds, head⟩, rfl, readable⟩
        refine ⟨I.advance 1 holds readable, ?_⟩
        rw [Cursor.cons_rest_advance head (by decide)]
        exact (I.within holds).rest
      exact skip_here.bind fun _ => (escape_gives start).bind fun e => ih _
    · exact Meets.of_imp (by mvcgen [ih]) fun _ h => h.1

@[local spec]
theorem quotedRest_keeps (quote : Char) (start : Position) (fuel : Nat) (done : List Char) :
    Keeps I (quotedRest quote start fuel done) := by
  induction fuel generalizing done with
  | zero => mvcgen [quotedRest]
  | succ fuel ih => mvcgen [quotedRest, ih]

theorem quotedScalar_takes (quote : Char) :
    Gives text (I.left n).Holds (quotedScalar quote) fun scanned s =>
      (I.left (n - 1)).Holds s ∧ (I.left (n - 1)).IsPlace scanned.stop := by
  unfold quotedScalar
  refine position_still.bind fun start => (skip_takes 1).bind fun _ => ?_
  generalize I.left (n - 1) = J
  mvcgen

/-! ### Block scalars -/

@[local spec]
theorem chomping_keeps : Keeps I chomping := by
  mvcgen [chomping]

@[local spec]
theorem indentation_keeps (start : Position) : Keeps I (indentation start) := by
  mvcgen [indentation]

@[local spec]
theorem restOfLine_keeps (task : Task) (start : Position) : Keeps I (restOfLine task start) := by
  mvcgen [restOfLine]

@[local spec]
theorem blockHeader_keeps (start : Position) : Keeps I (blockHeader start) := by
  mvcgen [blockHeader]

@[local spec]
theorem skipIndent_keeps (indent fuel : Nat) : Keeps I (skipIndent indent fuel) := by
  induction fuel with
  | zero => mvcgen [skipIndent]
  | succ fuel ih => mvcgen [skipIndent, ih]

@[local spec]
theorem blankLines_keeps (indent fuel : Nat) (done : BlankLines) (stop : I.IsPlace done.stop) :
    Gives text I.Holds (blankLines indent fuel done) fun lines s =>
      I.Holds s ∧ I.IsPlace lines.stop := by
  induction fuel generalizing done with
  | zero => mvcgen [blankLines]
  | succ fuel ih =>
    mvcgen [blankLines, ih]
    all_goals grind

@[local spec]
theorem leadingLines_keeps (fuel : Nat) (first : Option Nat) (widest : Nat) (done : BlankLines)
    (stop : I.IsPlace done.stop) :
    Gives text I.Holds (leadingLines fuel first widest done) fun found s =>
      I.Holds s ∧ I.IsPlace found.2.stop := by
  induction fuel generalizing first widest done with
  | zero => mvcgen [leadingLines]
  | succ fuel ih =>
    cases first
    all_goals
      mvcgen [leadingLines, ih, throw_gives, -Spec.throw_MonadExcept]
      all_goals grind

@[local spec]
theorem blockLines_keeps (folded : Bool) (indent : Nat) (topLevel : Bool) (fuel : Nat)
    (done : BlockBody) (stop : I.IsPlace done.after.stop) :
    Gives text I.Holds (blockLines folded indent topLevel fuel done) fun body s =>
      I.Holds s ∧ I.IsPlace body.after.stop := by
  induction fuel generalizing done with
  | zero => mvcgen [blockLines]
  | succ fuel ih =>
    mvcgen [blockLines, ih, andM]
    all_goals grind

theorem blockScalar_takes (folded : Bool) (minIndent : Nat) :
    Gives text (I.left n).Holds (blockScalar folded minIndent) fun found s =>
      (I.left (n - 1)).Holds s ∧ (I.left (n - 1)).IsPlace found.1.stop := by
  unfold blockScalar
  refine position_still.bind fun start => (skip_takes 1).bind fun _ => ?_
  generalize I.left (n - 1) = J
  mvcgen
  all_goals grind

/-! ### Anchors, aliases and tags -/

theorem name_takes (task : Task) :
    Gives text (I.left n).Holds (name task) fun _ => (I.left (n - 1)).Holds := by
  unfold name
  refine position_still.bind fun start => (skip_takes 1).bind fun _ => ?_
  generalize I.left (n - 1) = J
  mvcgen

@[local spec]
theorem uriEscapes_keeps (purpose : TagUse) (start : Position) :
    Keeps I (uriEscapes purpose start) := by
  have run (fuel : Nat) : Keeps I (uriEscapes.run purpose start fuel) := by
    induction fuel with
    | zero => mvcgen [uriEscapes.run]
    | succ fuel ih => mvcgen [uriEscapes.run, ih]
  mvcgen [uriEscapes, run, throw_gives, -Spec.throw_MonadExcept]
  exact (‹_ ∧ _›).1

@[local spec]
theorem uriParts_keeps (purpose : TagUse) (v : Version) (start : Position) (fuel : Nat)
    (begun : Bool) : Keeps I (uriParts purpose v start fuel begun) := by
  induction fuel generalizing begun with
  | zero => mvcgen [uriParts]
  | succ fuel ih => mvcgen [uriParts, ih]

@[local spec]
theorem uri_keeps (purpose : TagUse) (v : Version) (start : Position) :
    Keeps I (uri purpose v start) := by
  mvcgen [uri]

theorem tagHandle_takes (purpose : TagUse) (start : Position) :
    Gives text (I.left n).Holds (tagHandle purpose start) fun _ => (I.left (n - 1)).Holds := by
  have peek_here := peek_keeps (I := I.left n)
  have peekAt_here := peekAt_keeps (I := I.left n)
  have skip_here (k : Nat) : Gives text (I.left n).Holds (skip (k + 1))
      fun _ => (I.left (n - 1)).Holds :=
    (skip_takes (k + 1)).weaken (fun _ => id) fun _ _ h => Invariant.left_mono h (by omega)
  mvcgen [tagHandle, peek_here, peekAt_here, skip_here, -peek_keeps, -peekAt_keeps, -skip_keeps]

@[local spec]
theorem tagHandle_keeps (purpose : TagUse) (start : Position) : Keeps I (tagHandle purpose start) :=
  .of_takes fun _ => tagHandle_takes purpose start

theorem tag_takes (v : Version) :
    Gives text (I.left n).Holds (tag v) fun _ => (I.left (n - 1)).Holds := by
  have skip_here (k : Nat) : Gives text (I.left n).Holds (skip (k + 1))
      fun _ => (I.left (n - 1)).Holds :=
    (skip_takes (k + 1)).weaken (fun _ => id) fun _ _ h => Invariant.left_mono h (by omega)
  have get_here : Keeps (I.left n) get := by mvcgen
  unfold tag
  refine position_still.bind fun start => (peekAt_keeps 1).bind fun second => ?_
  dsimp only
  split
  case' isTrue => refine (skip_keeps 1).bind fun _ => ?_
  all_goals
    refine (peekAt_keeps 1).bind fun c => ?_
    split
    · refine (skip_here 1).bind fun _ => ?_
      generalize I.left (n - 1) = J
      mvcgen
    split
    · refine (skip_here 0).bind fun _ => ?_
      generalize I.left (n - 1) = J
      mvcgen
    refine get_here.bind fun s => (peekAt_keeps _).bind fun _ => ?_
    split
    · refine (tagHandle_takes _ _).bind fun _ => ?_
      generalize I.left (n - 1) = J
      mvcgen
    · refine (skip_here 0).bind fun _ => ?_
      generalize I.left (n - 1) = J
      mvcgen

/-! ### Directives -/

@[local spec]
theorem handleDefinition_keeps (v : Version) (start : Position) :
    Keeps I (handleDefinition v start) := by
  mvcgen [handleDefinition]

/-- The cursor stands behind `%YAML` and characters of its version. -/
structure InVersion (I : Invariant text) (s : Cursor) : Prop where
  holds : I.Holds s
  behind : ∃ between, "%YAML".toList ++ between ++ s.rest <:+: text ∧
    ∀ c ∈ between, c = ' ' ∨ c = '.' ∨ (asciiDigit? c).isSome

namespace InVersion

variable {s : Cursor} {run : List Char}

theorem advance (h : InVersion I s) (ahead : run <+: s.rest)
    (readable : (s.advance run.length).Readable)
    (passed : ∀ c ∈ run, c = ' ' ∨ c = '.' ∨ (asciiDigit? c).isSome) :
    InVersion I (s.advance run.length) := by
  obtain ⟨holds, between, behind, all⟩ := h
  obtain ⟨rest, split⟩ := ahead
  refine ⟨I.advance _ holds readable, between ++ run, ?_, ?_⟩
  · rw [Cursor.rest_advance, ← split, List.drop_left]
    rw [← split] at behind
    simpa using behind
  · intro c hc
    rcases List.mem_append.mp hc with hc | hc
    · exact all c hc
    · exact passed c hc

theorem explained (h : InVersion I s) (ahead : run <+: s.rest)
    (digits : ∀ c ∈ run, (asciiDigit? c).isSome) (long : Text.Integer.maxDigits < run.length) :
    (Fault.longNumber run.length).Explained text := by
  obtain ⟨-, between, behind, all⟩ := h
  have named : "%YAML".toList ++ between ++ run <+: "%YAML".toList ++ between ++ s.rest :=
    (List.prefix_append_right_inj _).mpr ahead
  exact ⟨long, between, run, named.isInfix.trans behind, all, digits, rfl⟩

end InVersion

theorem versionNumber_gives (start : Position) :
    Gives text (InVersion I) (versionNumber start) fun _ => InVersion I := by
  let digits (s : Cursor) := s.rest.takeWhile fun c => (asciiDigit? c).isSome
  have ahead (s : Cursor) : digits s <+: s.rest := List.takeWhile_prefix _
  have all_digits (s : Cursor) : ∀ c ∈ digits s, (asciiDigit? c).isSome :=
    List.all_eq_true.mp List.all_takeWhile
  have within : ∀ s, InVersion I s → s.Within text := fun _ h => I.within h.holds
  have peek_here := peek_gives within
  have peekAt_here (run : List Char) :=
    peekAt_gives (P := fun s => InVersion I s ∧ run = digits s) fun s h => within s h.1
  have skip_here (run : List Char) : Gives text (fun s => InVersion I s ∧ run = digits s)
      (skip run.length) fun _ => InVersion I := by
    refine (skip_gives (fun s h => within s h.1) _).weaken (fun _ => id) ?_
    rintro _ _ ⟨s₁, ⟨h, rfl⟩, rfl, readable⟩
    exact h.advance (ahead s₁) readable fun c hc => .inr (.inr (all_digits s₁ c hc))
  mvcgen [versionNumber, peek_here, peekAt_here, skip_here, throw_gives, -Spec.throw_MonadExcept,
    -peek_keeps, -peekAt_keeps, -skip_keeps]
  · exact ⟨(‹_ ∧ _›).1, rfl⟩
  next long s h =>
    obtain ⟨⟨inVersion, run⟩, -⟩ := h
    exact run ▸ inVersion.explained (ahead s) (all_digits s) (run ▸ long)
  · exact (‹_ ∧ _›).1

theorem skipSpaces_gives :
    Gives text (InVersion I) (skipWhile (· == ' ')) fun _ => InVersion I := by
  have takeWhile_here : Gives text (InVersion I) (takeWhile (· == ' ')) fun _ => InVersion I := by
    refine (takeWhile_gives (fun _ h => I.within h.holds) _).weaken (fun _ => id) ?_
    rintro _ _ ⟨s₁, h, rfl, rfl, readable⟩
    refine h.advance (List.takeWhile_prefix _) readable fun c hc => .inl ?_
    simpa using List.all_eq_true.mp List.all_takeWhile c hc
  mvcgen [skipWhile, takeWhile_here, -takeWhile_keeps, -skipWhile_keeps]

theorem version_gives (start : Position) :
    Gives text (InVersion I) (version start) fun _ => I.Holds := by
  have within : ∀ s, InVersion I s → s.Within text := fun _ h => I.within h.holds
  have skip_here : Gives text (fun s => InVersion I s ∧ s.rest.headD endMark = '.') (skip 1)
      fun _ => InVersion I := by
    refine (skip_gives (fun s h => within s h.1) 1).weaken (fun _ => id) ?_
    rintro _ _ ⟨s₁, ⟨h, head⟩, rfl, readable⟩
    have ahead : ['.'] <+: s₁.rest := by
      rw [← Cursor.cons_rest_advance head (by decide)]
      exact List.prefix_append ['.'] _
    exact h.advance ahead readable (by simp)
  unfold version
  refine skipSpaces_gives.bind fun _ => (versionNumber_gives start).bind fun major => ?_
  refine (peek_gives within).bind fun c => ?_
  split
  · mvcgen
  next point =>
    obtain rfl : c = '.' := by simpa using point
    refine skip_here.bind fun _ => (versionNumber_gives start).bind fun minor => ?_
    exact Meets.of_imp (by mvcgen) fun _ h => h.holds

theorem directiveName_gives (start : Position) :
    Gives text (fun s => I.Holds s ∧ '%' :: s.rest <:+: text) (directiveName start)
      fun found s => I.Holds s ∧ (found = "YAML".toList → InVersion I s) := by
  have takeWhile_here : Gives text (fun s => I.Holds s ∧ '%' :: s.rest <:+: text)
      (takeWhile isDirectiveChar)
      fun found s => I.Holds s ∧ (found = "YAML".toList → InVersion I s) := by
    refine (takeWhile_gives (fun _ h => I.within h.1) _).weaken (fun _ => id) ?_
    rintro found _ ⟨s₁, ⟨holds, behind⟩, run, rfl, readable⟩
    refine ⟨I.advance _ holds readable, fun named => ⟨I.advance _ holds readable, [], ?_, by simp⟩⟩
    obtain ⟨rest, split⟩ := run ▸ List.takeWhile_prefix isDirectiveChar (l := s₁.rest)
    rw [Cursor.rest_advance, ← split, List.drop_left, List.append_nil]
    rw [← split, named] at behind
    exact behind
  have peek_here (found : List Char) :=
    peek_gives (P := fun s => I.Holds s ∧ (found = "YAML".toList → InVersion I s))
      fun _ h => I.within h.1
  mvcgen [directiveName, takeWhile_here, peek_here, -takeWhile_keeps, -peek_keeps]
  all_goals exact (‹_ ∧ _›).1

theorem directive_takes (v : Version) :
    Gives text (fun s => (I.left n).Holds s ∧ s.rest.headD endMark = '%') (directive v)
      fun found s => (I.left (n - 1)).Holds s ∧ (I.left (n - 1)).IsPlace found.2 := by
  have position_here {P : Cursor → Prop} : Gives text P position fun _ => P := by
    mvcgen [position, -position_keeps]
  have skip_here : Gives text (fun s => (I.left n).Holds s ∧ s.rest.headD endMark = '%') (skip 1)
      fun _ s => (I.left (n - 1)).Holds s ∧ '%' :: s.rest <:+: text := by
    refine (skip_gives (fun _ h => (I.left n).within h.1) 1).weaken (fun _ => id) ?_
    rintro _ _ ⟨s₁, ⟨holds, head⟩, rfl, readable⟩
    refine ⟨Invariant.left_advance 1 holds readable, ?_⟩
    rw [Cursor.cons_rest_advance head (by decide)]
    exact ((I.left n).within holds).rest
  unfold directive
  refine position_here.bind fun start => skip_here.bind fun _ => ?_
  generalize I.left (n - 1) = J
  refine (directiveName_gives start).bind fun found => ?_
  dsimp only
  split
  next named =>
    obtain rfl : found = "YAML".toList := eq_of_beq named
    refine Meets.of_imp ?_ fun s h => h.2 rfl
    refine (version_gives start).bind fun version => ?_
    mvcgen
    all_goals grind
  · refine Meets.of_imp ?_ fun s h => h.1
    mvcgen
    all_goals grind

end Scan

end FlowLint.Yaml
