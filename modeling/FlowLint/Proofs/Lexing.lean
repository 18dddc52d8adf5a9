import FlowLint.Proofs.PlainScalars
import FlowLint.Yaml.Token.Lexer

/-! What the lexer does. While tokens are read the cursor stays in the text and the tokens that wait
stand at places on its way, with no comment inside a plain scalar (`Lex.Ready`). Each reader of a
token takes characters and adds its token to those that wait, with the tokens that it implies. -/

set_option mvcgen.warning false

namespace FlowLint.Yaml

open Std.Do
open Cursor (Invariant)

variable {text : List Char}

/-- The tokens that wait, and the open block collections, each of which will end with a token. -/
def Lexer.pending (s : Lexer) : Nat := s.queue.length + s.columns.length

/-- The token stands at places of cursors, and inside it no comment begins if it is a plain scalar.
-/
structure Token.Sound (I : Invariant text) (t : Token) : Prop where
  start : I.IsPlace t.start
  stop : I.IsPlace t.stop
  quiet : t.Quiet text

theorem Token.sound_of_other {I : Invariant text} {kind : Token.Kind} {start stop : Position}
    (other : kind.isPlain = false) (hstart : I.IsPlace start) (hstop : I.IsPlace stop) :
    Token.Sound I ⟨kind, start, stop⟩ := ⟨hstart, hstop, Token.quiet_of_not_plain other⟩

namespace Lex

variable {α : Type} {I : Invariant text} {n m w : Nat}
  {P P' : Cursor → List Bracket → Version → Prop}

/-- The end of the text has not been read, at most `w` tokens wait or are still to end a block, and
`P` holds of what the lexer knows of the rest. -/
structure Ready (I : Invariant text) (w : Nat) (P : Cursor → List Bracket → Version → Prop)
    (s : Lexer) : Prop where
  cursor : I.Holds s.cursor
  queue : ∀ t ∈ s.queue, t.Sound I
  candidates : ∀ k ∈ s.candidates, I.IsPlace k.2.place
  pending : s.pending ≤ w
  unfinished : s.finished = false
  known : P s.cursor s.flow s.version

/-- At most so many characters are left. -/
def Left (n : Nat) : Cursor → List Bracket → Version → Prop := fun s _ _ => s.rest.length ≤ n

/-- The end of the text has been read, and its token waits with those before it. -/
structure Ended (I : Invariant text) (w : Nat) (s : Lexer) : Prop where
  queue : ∀ t ∈ s.queue, t.Sound I
  pending : s.pending ≤ w
  finished : s.finished = true
  token : ∃ t ∈ s.queue, t.kind = .streamEnd

/-- The reader does what is said of it, and the text explains its faults. -/
abbrev Gives (text : List Char) (P : Lexer → Prop) (r : Lex α) (Q : α → Lexer → Prop) : Prop :=
  Meets P r Q (Fault.Explained text)

theorem throw_gives {Q : α → Lexer → Prop} (e : Fault) :
    Gives text (fun _ => e.Explained text) (throw e : Lex α) Q := throw_meets e

namespace Ready

variable {s : Lexer}

theorem mono {w' : Nat} (h : Ready I w P s) (more : w ≤ w')
    (known : ∀ c flow version, P c flow version → P' c flow version) : Ready I w' P' s :=
  ⟨h.cursor, h.queue, h.candidates, h.pending.trans more, h.unfinished, known _ _ _ h.known⟩

theorem here (h : Ready I w P s) : I.IsPlace s.cursor.position := ⟨s.cursor, h.cursor, rfl⟩

theorem candidate (h : Ready I w P s) {depth : Nat} {k : Candidate}
    (found : s.candidates.lookup depth = some k) : I.IsPlace k.place := by
  obtain ⟨before, after, split, -⟩ := List.lookup_eq_some_iff.mp found
  exact h.candidates (depth, k) (by rw [split]; simp)

end Ready

theorem run_scan (r : Scan α) (s : Lexer) :
    (scan r).run s = (r.run s.cursor).map fun x => (x.1, { s with cursor := x.2 }) := by
  simp only [scan, StateT.run_bind, StateT.run_get, StateT.run_monadLift, pure_bind]
  cases r.run s.cursor <;> rfl

/-- A reader of characters leaves everything but the cursor as it is. -/
theorem scan_gives {r : Scan α} {Q : α → Cursor → List Bracket → Version → Prop}
    (h : ∀ flow version, Scan.Gives text (fun s => I.Holds s ∧ P s flow version) r
      fun a s => I.Holds s ∧ Q a s flow version) :
    Gives text (Ready I w P) (scan r) fun a => Ready I w (Q a) := by
  refine meets_iff.mpr fun s hs => ?_
  have read := meets_iff.mp (h s.flow s.version) s.cursor ⟨hs.cursor, hs.known⟩
  rw [run_scan]
  revert read
  cases r.run s.cursor with
  | ok x =>
    exact fun read => ⟨read.1, hs.queue, hs.candidates, hs.pending, hs.unfinished, read.2⟩
  | error e => exact id

theorem scan_left {r : Scan α} (h : Scan.Gives text (I.left n).Holds r fun _ => (I.left m).Holds) :
    Gives text (Ready I w (Left n)) (scan r) fun _ => Ready I w (Left m) :=
  scan_gives fun _ _ => h

/-- Something may be known of what is read. -/
theorem scan_finds {r : Scan α} {Q : α → Cursor → List Bracket → Version → Prop} {F : α → Prop}
    (h : ∀ flow version, Scan.Gives text (fun s => I.Holds s ∧ P s flow version) r
      fun a s => (I.Holds s ∧ Q a s flow version) ∧ F a) :
    Gives text (Ready I w P) (scan r) fun a s => Ready I w (Q a) s ∧ F a := by
  have found : Gives text (Ready I w P) (scan r) fun a =>
      Ready I w fun s flow version => Q a s flow version ∧ F a :=
    scan_gives fun flow version => (h flow version).weaken (fun _ => id) fun _ _ h =>
      ⟨h.1.1, h.1.2, h.2⟩
  exact found.weaken (fun _ => id) fun _ _ h =>
    ⟨h.mono (Nat.le_refl _) fun _ _ _ known => known.1, h.known.2⟩

/-- A reader that does not move the cursor changes nothing. -/
theorem scan_still {r : Scan α}
    (h : ∀ Q : Cursor → Prop, (∀ s, Q s → s.Within text) → Scan.Gives text Q r fun _ => Q) :
    Gives text (Ready I w P) (scan r) fun _ => Ready I w P :=
  scan_gives fun _ _ => h _ fun _ h => I.within h.1

theorem position_gives :
    Gives text (Ready I w P) (scan Scan.position) fun p s => Ready I w P s ∧ I.IsPlace p := by
  refine scan_finds fun _ _ => ?_
  mvcgen [Scan.position]
  next s h => exact ⟨h, s, h.1, rfl⟩

theorem column_gives : Gives text (Ready I w P) (scan Scan.column) fun _ => Ready I w P :=
  scan_still fun _ _ => by mvcgen [Scan.column]

theorem bound_gives : Gives text (Ready I w P) (scan Scan.bound) fun _ => Ready I w P :=
  scan_still fun _ _ => by mvcgen [Scan.bound]

theorem peekAt_gives (k : Nat) : Gives text (Ready I w P) (scan (Scan.peekAt k))
    fun c => Ready I w fun s flow version =>
      P s flow version ∧ (s.rest.drop k).headD endMark = c :=
  scan_gives fun _ _ => (Scan.peekAt_gives (fun _ h => I.within h.1) k).weaken (fun _ => id)
    fun _ _ h => ⟨h.1.1, h.1.2, h.2⟩

theorem seesMarker_gives (t : List Char) :
    Gives text (Ready I w P) (scan (Scan.seesMarker t)) fun _ => Ready I w P :=
  scan_still fun _ within => Scan.seesMarker_gives within t

theorem get_keeps : Gives text (Ready I w P) get fun _ => Ready I w P := by
  mvcgen

theorem get_gives : Gives text (Ready I w P) get fun s now => now = s ∧ Ready I w P s := by
  mvcgen

theorem inFlow_gives :
    Gives text (Ready I w P) inFlow fun flow s => Ready I w P s ∧ flow = !s.flow.isEmpty := by
  mvcgen [inFlow]

theorem inFlow_keeps : Gives text (Ready I w P) inFlow fun _ => Ready I w P :=
  inFlow_gives.weaken (fun _ => id) fun _ _ h => h.1

theorem allowKeys_gives (allowed : Bool) :
    Gives text (Ready I w P) (allowKeys allowed) fun _ => Ready I w P := by
  mvcgen [allowKeys]
  next h _ => exact ⟨h.cursor, h.queue, h.candidates, h.pending, h.unfinished, h.known⟩

theorem push_gives {kind : Token.Kind} {start stop : Position}
    (sound : Token.Sound I ⟨kind, start, stop⟩) :
    Gives text (Ready I w P) (push kind start stop) fun _ => Ready I (w + 1) P := by
  mvcgen [push]
  next h _ =>
    refine ⟨h.cursor, ?_, h.candidates, ?_, h.unfinished, h.known⟩
    · exact List.forall_mem_append.mpr ⟨h.queue, List.forall_mem_singleton.mpr sound⟩
    · have := h.pending
      grind [Lexer.pending]

theorem dropStale_gives : Gives text (Ready I w P) dropStale fun _ => Ready I w P := by
  mvcgen [dropStale, throw_gives, -Spec.throw_MonadExcept]
  next h _ _ =>
    exact ⟨h.cursor, h.queue, fun k hk => h.candidates k (List.mem_of_mem_filter hk), h.pending,
      h.unfinished, h.known⟩

theorem dropCandidate_gives : Gives text (Ready I w P) dropCandidate fun _ => Ready I w P := by
  mvcgen [dropCandidate, throw_gives, -Spec.throw_MonadExcept]
  next h _ _ _ _ _ =>
    exact ⟨h.cursor, h.queue, fun k hk => h.candidates k (List.mem_of_mem_filter hk), h.pending,
      h.unfinished, h.known⟩

theorem saveCandidate_gives : Gives text (Ready I w P) saveCandidate fun _ => Ready I w P := by
  have dropCandidate_here : Gives text (Ready I w P) dropCandidate fun _ => Ready I w P :=
    dropCandidate_gives
  mvcgen [saveCandidate, dropCandidate_here]
  next h _ _ _ =>
    refine ⟨h.cursor, h.queue, ?_, h.pending, h.unfinished, h.known⟩
    exact List.forall_mem_append.mpr ⟨h.candidates, List.forall_mem_singleton.mpr h.here⟩

/-- A block that is closed gives the token of its end for its column. -/
theorem closeBlocks_gives (column : Option Nat) :
    Gives text (Ready I w P) (closeBlocks column) fun _ => Ready I w P := by
  mvcgen [closeBlocks]
  next s h flat p closes closed =>
    refine ⟨h.cursor, ?_, h.candidates, ?_, h.unfinished, h.known⟩
    · refine List.forall_mem_append.mpr ⟨h.queue, List.forall_mem_map.mpr fun _ _ => ?_⟩
      exact ⟨h.here, h.here, Token.quiet_of_not_plain rfl⟩
    · have columns := congrArg List.length
        (List.takeWhile_append_dropWhile (p := closes) (l := s.columns))
      have before := h.pending
      simp only [Lexer.pending, List.length_append, List.length_map] at before columns ⊢
      change s.queue.length + closed.length + (s.columns.dropWhile closes).length ≤ w
      change closed.length + _ = _ at columns
      omega

theorem openBlock_gives (column : Nat) :
    Gives text (Ready I w P) (openBlock column) fun _ => Ready I (w + 1) P := by
  mvcgen [openBlock]
  next h _ =>
    refine ⟨h.cursor, h.queue, h.candidates, ?_, h.unfinished, h.known⟩
    have := h.pending
    grind [Lexer.pending]
  next h _ => exact h.mono (Nat.le_succ w) fun _ _ _ => id

theorem insertAt_gives (number : Nat) {kind : Token.Kind} {p : Position}
    (sound : Token.Sound I ⟨kind, p, p⟩) :
    Gives text (Ready I w P) (insertAt number kind p) fun _ => Ready I (w + 1) P := by
  mvcgen [insertAt]
  next h _ =>
    refine ⟨h.cursor, ?_, h.candidates, ?_, h.unfinished, h.known⟩
    · refine List.forall_mem_append.mpr ⟨fun t ht => h.queue t (List.mem_of_mem_take ht), ?_⟩
      exact List.forall_mem_cons.mpr ⟨sound, fun t ht => h.queue t (List.mem_of_mem_drop ht)⟩
    · have := h.pending
      grind [Lexer.pending]

/-! ### Tokens that are no scalars -/

theorem pushIndicator_gives {kind : Token.Kind} (other : kind.isPlain = false) (width : Nat) :
    Gives text (Ready I w (Left n)) (pushIndicator kind width)
      fun _ => Ready I (w + 1) (Left (n - width)) :=
  position_gives.bind_fact fun _ hstart => (scan_left (Scan.skip_takes width)).bind fun _ =>
    position_gives.bind_fact fun _ hstop => push_gives (Token.sound_of_other other hstart hstop)

theorem pushMark_gives {kind : Token.Kind} (other : kind.isPlain = false) :
    Gives text (Ready I w P) (pushMark kind)
      fun _ s => Ready I (w + 1) P s ∧ ∃ t ∈ s.queue, t.kind = kind := by
  refine position_gives.bind_fact fun p here => ?_
  have push_here := push_gives (P := P) (w := w) (Token.sound_of_other other here here)
  refine meets_iff.mpr fun s hs => ⟨push_here.ok hs rfl, ⟨kind, p, p⟩, ?_, rfl⟩
  exact List.mem_append_right _ List.mem_cons_self

theorem skipToToken_gives :
    Gives text (Ready I w (Left n)) skipToToken fun _ => Ready I w (Left n) := by
  have keeps {r : Scan Unit} (h : Scan.Keeps (I.left n) r) :
      Gives text (Ready I w (Left n)) (scan r) fun _ => Ready I w (Left n) := scan_left h
  have skip_here (k : Nat) := keeps (Scan.skip_keeps k)
  have skipWhile_here (p : Char → Bool) := keeps (Scan.skipWhile_keeps p)
  have lineBreak_here : Gives text (Ready I w (Left n)) (scan Scan.lineBreak)
      fun _ => Ready I w (Left n) := scan_left Scan.lineBreak_keeps
  have peek_here : Gives text (Ready I w (Left n)) (scan Scan.peek) fun _ => Ready I w (Left n) :=
    scan_left Scan.peek_keeps
  have bound_here : Gives text (Ready I w (Left n)) (scan Scan.bound)
      fun _ => Ready I w (Left n) := bound_gives
  have inFlow_here : Gives text (Ready I w (Left n)) inFlow fun _ => Ready I w (Left n) :=
    inFlow_keeps
  have allowKeys_here : Gives text (Ready I w (Left n)) (allowKeys true)
      fun _ => Ready I w (Left n) := allowKeys_gives true
  have lines (fuel : Nat) : Gives text (Ready I w (Left n)) (skipToToken.lines fuel)
      fun _ => Ready I w (Left n) := by
    induction fuel with
    | zero => mvcgen [skipToToken.lines]
    | succ fuel ih =>
      mvcgen [skipToToken.lines, inFlow_here, skipWhile_here, peek_here, lineBreak_here,
        allowKeys_here, ih]
  mvcgen [skipToToken, peek_here, skip_here, bound_here, lines]

/-- An indicator may add the start of its block and the end. -/
theorem openBlockHere_gives {kind : Token.Kind} (other : kind.isPlain = false) (refusal : Problem) :
    Gives text (Ready I w P) (openBlockHere kind refusal) fun _ => Ready I (w + 2) P := by
  have inFlow_here : Gives text (Ready I w P) inFlow fun _ => Ready I w P := inFlow_keeps
  have position_here : Gives text (Ready I w P) (scan Scan.position)
      fun p s => Ready I w P s ∧ I.IsPlace p := position_gives
  have openBlock_here (column : Nat) : Gives text (Ready I w P) (openBlock column)
      fun _ => Ready I (w + 1) P := openBlock_gives column
  have push_here (p : Position) (here : I.IsPlace p) : Gives text (Ready I (w + 1) P)
      (push kind p p) fun _ => Ready I (w + 2) P :=
    push_gives (Token.sound_of_other other here here)
  mvcgen [openBlockHere, inFlow_here, position_here, openBlock_here, push_here, throw_gives,
    -Spec.throw_MonadExcept]
  · exact (‹_ ∧ _›).1
  · exact fun _ _ => (‹_ ∧ _›).2
  · exact Ready.mono ‹_› (Nat.le_succ _) fun _ _ _ => id
  · exact Ready.mono ‹_› (Nat.le_add_right _ _) fun _ _ _ => id

theorem readEnd_gives : Gives text (Ready I w P) readEnd fun _ => Ended I (w + 1) := by
  refine (closeBlocks_gives none).bind fun _ => dropCandidate_gives.bind fun _ =>
    (allowKeys_gives false).bind fun _ => (pushMark_gives rfl).bind fun _ => ?_
  mvcgen
  next h _ => exact ⟨h.1.queue, h.1.pending, rfl, h.2⟩

theorem readDirective_gives :
    Gives text (Ready I w fun s _ _ => s.rest.length ≤ n ∧ s.rest.headD endMark = '%') readDirective
      fun _ => Ready I (w + 1) (Left (n - 1)) := by
  have directive_here (v : Version) :
      Gives text (Ready I w fun s _ _ => s.rest.length ≤ n ∧ s.rest.headD endMark = '%')
        (scan (Scan.directive v)) fun found s => Ready I w (Left (n - 1)) s ∧ I.IsPlace found.2 :=
    scan_finds fun _ _ => (Scan.directive_takes v).weaken (fun s h => ⟨⟨h.1, h.2.1⟩, h.2.2⟩)
      fun _ _ h => ⟨h.1, h.2.of_left⟩
  have version_here (v : Version) : Gives text (Ready I w (Left (n - 1)))
      (modify ({ · with version := v })) fun _ => Ready I w (Left (n - 1)) := by
    mvcgen
    next h _ => exact ⟨h.cursor, h.queue, h.candidates, h.pending, h.unfinished, h.known⟩
  have get_here : Gives text (Ready I w fun s _ _ => s.rest.length ≤ n ∧ s.rest.headD endMark = '%')
      get fun _ => Ready I w fun s _ _ => s.rest.length ≤ n ∧ s.rest.headD endMark = '%' := by
    mvcgen
  refine (closeBlocks_gives none).bind fun _ => dropCandidate_gives.bind fun _ =>
    (allowKeys_gives false).bind fun _ => position_gives.bind_fact fun start hstart =>
    get_here.bind fun s => (directive_here s.version).bind_fact fun found hstop => ?_
  have sound : Token.Sound I ⟨.directive found.1, start, found.2⟩ :=
    Token.sound_of_other rfl hstart hstop
  have push_here := push_gives (P := Left (n - 1)) (w := w) sound
  dsimp only
  split
  · exact (version_here _).bind fun _ => push_here
  · exact push_here

theorem readMarker_gives {kind : Token.Kind} (other : kind.isPlain = false) :
    Gives text (Ready I w (Left n)) (readMarker kind) fun _ => Ready I (w + 1) (Left (n - 3)) :=
  (closeBlocks_gives none).bind fun _ => dropCandidate_gives.bind fun _ =>
    (allowKeys_gives false).bind fun _ => pushIndicator_gives other 3

theorem readOpening_gives (bracket : Bracket) {kind : Token.Kind} (other : kind.isPlain = false) :
    Gives text (Ready I w (Left n)) (readOpening bracket kind)
      fun _ => Ready I (w + 1) (Left (n - 1)) := by
  have open_here : Gives text (Ready I w (Left n))
      (modify fun s => { s with flow := bracket :: s.flow }) fun _ => Ready I w (Left n) := by
    mvcgen
    next h _ => exact ⟨h.cursor, h.queue, h.candidates, h.pending, h.unfinished, h.known⟩
  exact saveCandidate_gives.bind fun _ => open_here.bind fun _ =>
    (allowKeys_gives true).bind fun _ => pushIndicator_gives other 1

theorem readClosing_gives {kind : Token.Kind} (other : kind.isPlain = false) :
    Gives text (Ready I w (Left n)) (readClosing kind)
      fun _ => Ready I (w + 1) (Left (n - 1)) := by
  have close_here : Gives text (Ready I w (Left n)) (modify fun s => { s with flow := s.flow.tail })
      fun _ => Ready I w (Left n) := by
    mvcgen
    next h _ => exact ⟨h.cursor, h.queue, h.candidates, h.pending, h.unfinished, h.known⟩
  exact dropCandidate_gives.bind fun _ => close_here.bind fun _ =>
    (allowKeys_gives false).bind fun _ => pushIndicator_gives other 1

theorem readFlowEntry_gives :
    Gives text (Ready I w (Left n)) readFlowEntry fun _ => Ready I (w + 1) (Left (n - 1)) :=
  (allowKeys_gives true).bind fun _ => dropCandidate_gives.bind fun _ => pushIndicator_gives rfl 1

theorem readBlockEntry_gives :
    Gives text (Ready I w (Left n)) readBlockEntry fun _ => Ready I (w + 3) (Left (n - 1)) :=
  (openBlockHere_gives rfl _).bind fun _ => (allowKeys_gives true).bind fun _ =>
    dropCandidate_gives.bind fun _ => pushIndicator_gives rfl 1

theorem readKey_gives :
    Gives text (Ready I w (Left n)) readKey fun _ => Ready I (w + 3) (Left (n - 1)) :=
  (openBlockHere_gives rfl _).bind fun _ => inFlow_keeps.bind fun _ => (allowKeys_gives _).bind
    fun _ => dropCandidate_gives.bind fun _ => pushIndicator_gives rfl 1

/-- The colon of a value may add the token of its key, and the start of their mapping, which will
end. -/
theorem readValue_gives :
    Gives text (Ready I w (Left n)) readValue fun _ => Ready I (w + 4) (Left (n - 1)) := by
  have rest {v : Nat} (few : v ≤ w + 3) (x : Lex Unit) (keeps : Gives text (Ready I v (Left n)) x
      fun _ => Ready I v (Left n)) : Gives text (Ready I v (Left n))
      (x >>= fun _ => pushIndicator .value 1) fun _ => Ready I (w + 4) (Left (n - 1)) :=
    keeps.bind fun _ => (pushIndicator_gives rfl 1).weaken (fun _ => id)
      fun _ _ h => h.mono (Nat.succ_le_succ few) fun _ _ _ => id
  refine get_gives.bind_fact fun s before => ?_
  dsimp only
  split
  next k found =>
    have here : I.IsPlace k.place := before.candidate found
    have set_here : Gives text (fun now => now = s)
        (set { s with candidates := s.candidates.filter (·.1 != s.flow.length) })
        fun _ => Ready I w (Left n) := by
      mvcgen
      exact ⟨before.cursor, before.queue,
        fun k hk => before.candidates k (List.mem_of_mem_filter hk), before.pending,
        before.unfinished, before.known⟩
    have insertAt_here (kind : Token.Kind) (other : kind.isPlain = false) {v : Nat} :=
      insertAt_gives (w := v) (P := Left n) k.number (Token.sound_of_other other here here)
    refine set_here.bind fun _ => (insertAt_here .key rfl).bind fun _ => inFlow_keeps.bind
      fun flow => ?_
    split
    · refine (openBlock_gives _).bind fun opened => ?_
      split
      · exact (insertAt_here _ rfl).bind fun _ => rest (Nat.le_refl _) _ (allowKeys_gives _)
      · exact rest (Nat.le_succ _) _ (allowKeys_gives _)
    · exact rest (Nat.le_add_right _ 2) _ (allowKeys_gives _)
  · refine Meets.of_imp ?_ fun now same => same ▸ before
    refine (openBlockHere_gives rfl _).bind fun _ => inFlow_keeps.bind fun _ =>
      (allowKeys_gives _).bind fun _ => rest (Nat.le_succ _) _ dropCandidate_gives

/-! ### Scalars and properties -/

theorem readName_gives (task : Task) {kind : String → Token.Kind}
    (other : ∀ name, (kind name).isPlain = false) :
    Gives text (Ready I w (Left n)) (readName task kind)
      fun _ => Ready I (w + 1) (Left (n - 1)) :=
  saveCandidate_gives.bind fun _ => (allowKeys_gives false).bind fun _ =>
    position_gives.bind_fact fun _ hstart => (scan_left (Scan.name_takes task)).bind fun _ =>
    position_gives.bind_fact fun _ hstop =>
    push_gives (Token.sound_of_other (other _) hstart hstop)

theorem readTag_gives :
    Gives text (Ready I w (Left n)) readTag fun _ => Ready I (w + 1) (Left (n - 1)) :=
  saveCandidate_gives.bind fun _ => (allowKeys_gives false).bind fun _ =>
    position_gives.bind_fact fun _ hstart => get_keeps.bind fun _ =>
    (scan_left (Scan.tag_takes _)).bind fun _ => position_gives.bind_fact fun _ hstop =>
    push_gives (Token.sound_of_other rfl hstart hstop)

theorem readBlockScalar_gives {style : ScalarStyle} (other : style ≠ .plain) :
    Gives text (Ready I w (Left n)) (readBlockScalar style)
      fun _ => Ready I (w + 1) (Left (n - 1)) := by
  have blockScalar_here (folded : Bool) (minIndent : Nat) : Gives text (Ready I w (Left n))
      (scan (Scan.blockScalar folded minIndent)) fun found s => Ready I w (Left (n - 1)) s ∧
        I.IsPlace found.1.stop :=
    scan_finds fun _ _ => (Scan.blockScalar_takes folded minIndent).weaken (fun _ => id)
      fun _ _ h => ⟨h.1, h.2.of_left⟩
  refine (allowKeys_gives true).bind fun _ => dropCandidate_gives.bind fun _ =>
    position_gives.bind_fact fun start hstart => get_keeps.bind fun s =>
    (blockScalar_here _ _).bind_fact fun found hstop => ?_
  have sound : Token.Sound I ⟨.scalar (.ofList found.1.text) style, start, found.1.stop⟩ :=
    Token.sound_of_other (Token.Kind.isPlain_scalar other) hstart hstop
  have push_here := push_gives (P := Left (n - 1)) (w := w) sound
  dsimp only
  split
  · exact skipToToken_gives.bind fun _ => push_here
  · exact push_here

theorem readQuoted_gives (quote : Char) {style : ScalarStyle} (other : style ≠ .plain) :
    Gives text (Ready I w (Left n)) (readQuoted quote style)
      fun _ => Ready I (w + 1) (Left (n - 1)) := by
  have quotedScalar_here : Gives text (Ready I w (Left n)) (scan (Scan.quotedScalar quote))
      fun scanned s => Ready I w (Left (n - 1)) s ∧ I.IsPlace scanned.stop :=
    scan_finds fun _ _ => (Scan.quotedScalar_takes quote).weaken (fun _ => id)
      fun _ _ h => ⟨h.1, h.2.of_left⟩
  exact saveCandidate_gives.bind fun _ => (allowKeys_gives false).bind fun _ =>
    position_gives.bind_fact fun start hstart => quotedScalar_here.bind_fact fun _ hstop =>
    push_gives (Token.sound_of_other (Token.Kind.isPlain_scalar other) hstart hstop)

end Lex

end FlowLint.Yaml
