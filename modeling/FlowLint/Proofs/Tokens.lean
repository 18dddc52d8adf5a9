import FlowLint.Proofs.Lexing
import FlowLint.Proofs.Places

/-! The tokens of a text. What token comes next is chosen by the two characters at the cursor
(`Lex.View`); it takes characters unless it is the last (`Lex.readToken_gives`). So the tokens of a
text are known: where they stand, how many they are, what stops them, and that they go on to the end
of the text if nothing does (`Token.reads_ofText`). -/

set_option mvcgen.warning false

namespace FlowLint.Yaml

open Std.Do
open Cursor (Invariant)

variable {text : List Char}

namespace Lex

variable {I : Invariant text} {n m w : Nat}

/-- What the choice of the next token goes by. -/
structure View where
  head : Char
  next : Char
  inFlow : Bool
  old : Bool

/-- At most so many characters are left, of which these are the next. -/
structure Sees (n : Nat) (v : View) (s : Cursor) (flow : List Bracket) (version : Version) :
    Prop where
  left : s.rest.length ≤ n
  head : s.rest.headD endMark = v.head
  next : (s.rest.drop 1).headD endMark = v.next
  inFlow : (!flow.isEmpty) = v.inFlow
  old : version.isOld = v.old

/-- A plain scalar may begin with the character, as far as the next one does not matter. -/
structure View.MayBeginPlain (v : View) : Prop where
  solid : isGap v.head = false
  noComment : v.head ≠ '#'
  inFlow : v.inFlow = true → isFlowIndicator v.head = true → v.head = ':'

variable {v : View}

theorem View.mayBeginPlain_of_other (solid : isGap v.head = false)
    (other : isIndicator v.head = false) : v.MayBeginPlain := by
  have indicators : v.head ≠ '#' ∧ isFlowIndicator v.head = false := by
    simp [isIndicator] at other
    simp [isFlowIndicator, other]
  exact ⟨solid, indicators.1, fun _ flow => absurd flow (by simp [indicators.2])⟩

theorem View.mayBeginPlain_of_indicator
    (h : v.head = '-' ∨ v.head = ':' ∨ v.head = '?' ∧ v.inFlow = false) : v.MayBeginPlain := by
  rcases h with h | h | ⟨h, outside⟩
  · exact ⟨by rw [h]; decide, by simp [h], by simp [h, isFlowIndicator]⟩
  · exact ⟨by rw [h]; decide, by simp [h], fun _ _ => h⟩
  · exact ⟨by rw [h]; decide, by simp [h], by simp [outside]⟩

theorem Sees.beginsPlain {s : Cursor} {flow : List Bracket} {version : Version}
    (h : Sees n v s flow version) (there : v.head ≠ endMark) (may : v.MayBeginPlain)
    (colon : v.head = ':' → isGap v.next = false) : Scan.BeginsPlain v.inFlow v.old s := by
  refine ⟨h.head ▸ may.noComment, ?_⟩
  have first := h.head
  have second := h.next
  cases rest : s.rest with
  | nil =>
    rw [rest] at first
    exact absurd first.symm there
  | cons c later =>
    rw [rest] at first second
    have head : c = v.head := first
    have gap : gapNext later = isGap v.next := by
      rw [← show later.headD endMark = v.next from second]
      cases later <;> rfl
    rw [plainRun, gap, head, may.solid]
    have inFlow := may.inFlow
    grind

theorem next_sees : Gives text (Ready I w (Sees n v)) (scan (Scan.peekAt 1))
    fun c s => Ready I w (Sees n v) s ∧ c = v.next :=
  (peekAt_gives 1).weaken (fun _ => id) fun _ _ h =>
    ⟨h.mono (Nat.le_refl w) fun _ _ _ known => known.1, h.known.2.symm.trans h.known.1.next⟩

theorem inFlow_sees : Gives text (Ready I w (Sees n v)) inFlow
    fun flow s => Ready I w (Sees n v) s ∧ flow = v.inFlow :=
  inFlow_gives.weaken (fun _ => id) fun _ _ h => ⟨h.1, h.2.trans h.1.known.inFlow⟩

theorem gapFollows_sees : Gives text (Ready I w (Sees n v)) gapFollows
    fun gap s => Ready I w (Sees n v) s ∧ gap = isGap v.next := by
  refine next_sees.bind_fact fun c here => ?_
  mvcgen
  exact ⟨‹_›, congrArg isGap here⟩

theorem seesValue_sees : Gives text (Ready I w (Sees n v)) seesValue
    fun value s => Ready I w (Sees n v) s ∧ (value = false → isGap v.next = false) := by
  have gap_here : Gives text (Ready I w (Sees n v)) gapFollows
      fun gap s => Ready I w (Sees n v) s ∧ (gap = false → isGap v.next = false) :=
    gapFollows_sees.weaken (fun _ => id) fun _ _ h => ⟨h.1, fun none => h.2.symm.trans none⟩
  mvcgen [seesValue, gap_here]
  all_goals exact ⟨‹_›, nofun⟩

theorem seesPlain_sees : Gives text (Ready I w (Sees n v)) (seesPlain v.head)
    fun plain s => Ready I w (Sees n v) s ∧ (plain = true → v.MayBeginPlain) := by
  unfold seesPlain
  split
  next other =>
    have both : isGap v.head = false ∧ isIndicator v.head = false := by simpa using other
    mvcgen
    exact ⟨‹_›, View.mayBeginPlain_of_other both.1 both.2⟩
  next =>
    refine next_sees.bind_fact fun next _ => inFlow_sees.bind_fact fun flow same => ?_
    mvcgen
    next dash s h => exact ⟨h, fun _ => View.mayBeginPlain_of_indicator (.inl (eq_of_beq dash))⟩
    next colon s h =>
      rw [Bool.and_eq_true, beq_iff_eq] at colon
      exact ⟨h, fun _ => View.mayBeginPlain_of_indicator (.inr (.inl colon.1))⟩
    next s h =>
      refine ⟨h, fun plain => View.mayBeginPlain_of_indicator (.inr ?_)⟩
      grind

theorem readPlain_gives (there : v.head ≠ endMark) (may : v.MayBeginPlain)
    (colon : v.head = ':' → isGap v.next = false) :
    Gives text (Ready I w (Sees n v)) readPlain fun _ => Ready I (w + 1) (Left (n - 1)) := by
  have get_here : Gives text (Ready I w (Sees n v)) get
      fun s now => Ready I w (Sees n v) now ∧ s.version.isOld = v.old :=
    get_gives.weaken (fun _ => id) fun _ _ h => ⟨h.1 ▸ h.2, h.2.known.old⟩
  have position_here : Gives text (Ready I w (Sees n v)) (scan Scan.position) fun p s =>
      Ready I w (fun s flow version => Sees n v s flow version ∧ s.position = p) s ∧
        I.IsPlace p := by
    refine scan_finds (Q := fun p s flow version => Sees n v s flow version ∧ s.position = p)
      fun flow version => ?_
    mvcgen [Scan.position]
    next s h => exact ⟨h, s, h.1, rfl⟩
  have plainScalar_here (p : Position) (indent : Nat) :
      Gives text (Ready I w fun s flow version => Sees n v s flow version ∧ s.position = p)
        (scan (Scan.plainScalar v.inFlow v.old indent false)) fun scanned s =>
          Ready I w (Left (n - 1)) s ∧ I.IsPlace scanned.stop ∧
            Quiet text p.index scanned.stop.index :=
    scan_finds fun _ _ => (Scan.plainScalar_takes p.index I v.inFlow v.old indent false).weaken
      (fun s h => ⟨⟨h.1, h.2.1.left⟩, h.2.1.beginsPlain there may colon, h.2.2 ▸ rfl⟩)
      fun _ _ h => h
  refine saveCandidate_gives.bind fun _ => (allowKeys_gives false).bind fun _ =>
    get_here.bind_fact fun s old => position_here.bind_fact fun start hstart => ?_
  have inFlow_here : Gives text
      (Ready I w fun s flow version => Sees n v s flow version ∧ s.position = start) inFlow
      fun flow s => Ready I w (fun s flow version => Sees n v s flow version ∧
        s.position = start) s ∧ flow = v.inFlow :=
    inFlow_gives.weaken (fun _ => id) fun _ _ h => ⟨h.1, h.2.trans h.1.known.1.inFlow⟩
  refine inFlow_here.bind_fact fun flow same => ?_
  rw [old, same]
  exact (plainScalar_here start _).bind_fact fun _ found => (allowKeys_gives _).bind fun _ =>
    push_gives ⟨hstart, found.1, fun _ => found.2⟩

/-- Fewer characters are left. -/
def Fewer (n : Nat) : Cursor → List Bracket → Version → Prop := fun s _ _ => s.rest.length < n

/-- Either characters have been taken, or the end of the text has been read. -/
def Advanced (I : Invariant text) (w n : Nat) (s : Lexer) : Prop :=
  Ready I w (Fewer n) s ∨ Ended I w s

theorem Ready.advanced {s : Lexer} {w' : Nat} (h : Ready I w (Left m) s) (more : w ≤ w')
    (less : m < n) : Advanced I w' n s :=
  .inl (h.mono more fun _ _ _ few => Nat.lt_of_le_of_lt few less)

/-- A reader that takes characters does so too when it is known which they are. -/
theorem advances {r : Lex Unit} {k : Nat}
    (h : Gives text (Ready I w (Left n)) r fun _ => Ready I (w + k) (Left m)) (small : k ≤ 4)
    (less : m < n) : Gives text (Ready I w (Sees n v)) r fun _ => Advanced I (w + 4) n :=
  h.weaken (fun _ h => h.mono (Nat.le_refl w) fun _ _ _ sees => sees.left)
    fun _ _ h => h.advanced (Nat.add_le_add_left small w) less

/-- If a character stands at the cursor, then the next two are known. -/
theorem Ready.exists_sees {s : Lexer} {c : Char} (there : c ≠ endMark)
    (h : Ready I w (fun s _ _ => s.rest.length ≤ n ∧ s.rest.headD endMark = c) s) :
    ∃ v : { v : View // 0 < n ∧ v.head = c }, Ready I w (Sees n v) s := by
  obtain ⟨few, head⟩ := h.known
  have some_left : s.cursor.rest ≠ [] := by
    intro none
    rw [none] at head
    exact there head.symm
  have view : Sees n ⟨c, (s.cursor.rest.drop 1).headD endMark, !s.flow.isEmpty, s.version.isOld⟩
      s.cursor s.flow s.version := ⟨few, head, rfl, rfl, rfl⟩
  exact ⟨⟨_, (List.length_pos_iff.mpr some_left).trans_le few, rfl⟩, h.cursor, h.queue,
    h.candidates, h.pending, h.unfinished, view⟩

/-- With a token come at most three others, now or later: those that open a mapping and mark its
first key, and the end of the mapping. -/
theorem readToken_gives :
    Gives text (Ready I w (Left n)) readToken fun _ => Advanced I (w + 4) n := by
  refine skipToToken_gives.bind fun _ => dropStale_gives.bind fun _ =>
    column_gives.bind fun column => (closeBlocks_gives _).bind fun _ =>
    (peekAt_gives 0).bind fun c => inFlow_keeps.bind fun flow => .ite (fun _ => ?_) fun going => ?_
  · exact readEnd_gives.weaken (fun _ => id) fun _ _ h =>
      .inr ⟨h.queue, h.pending.trans (Nat.add_le_add_left (by decide) w), h.finished, h.token⟩
  have there : c ≠ endMark := by simpa using going
  refine Meets.of_exists ?_ fun s h => Ready.exists_sees there h
  rintro ⟨v, some_left, rfl⟩
  have less : n - 1 < n := Nat.sub_one_lt_of_lt some_left
  have less' : n - 3 < n := Nat.sub_lt some_left (by decide)
  have gapFollows_here : Gives text (Ready I w (Sees n v)) gapFollows
      fun _ => Ready I w (Sees n v) := gapFollows_sees.weaken (fun _ => id) fun _ _ h => h.1
  -- The conditions are taken in the order of the program; what fails is known only of the colon.
  refine .ite (fun percent => ?_) fun _ => ?_
  · have head : v.head = '%' := by simpa using (Bool.and_eq_true_iff.mp percent).1
    exact readDirective_gives.weaken
      (fun _ h => h.mono (Nat.le_refl w) fun _ _ _ sees => ⟨sees.left, sees.head.trans head⟩)
      fun _ _ h => h.advanced (Nat.add_le_add_left (by decide) w) less
  refine (Meets.andM (fun _ => seesMarker_gives _) fun _ h _ => h).bind fun _ =>
    .ite (fun _ => advances (readMarker_gives rfl) (by decide) less') fun _ => ?_
  refine (Meets.andM (fun _ => seesMarker_gives _) fun _ h _ => h).bind fun _ =>
    .ite (fun _ => advances (readMarker_gives rfl) (by decide) less') fun _ => ?_
  refine .ite (fun _ => advances (readOpening_gives _ rfl) (by decide) less) fun _ => ?_
  refine .ite (fun _ => advances (readOpening_gives _ rfl) (by decide) less) fun _ => ?_
  refine .ite (fun _ => advances (readClosing_gives rfl) (by decide) less) fun _ => ?_
  refine .ite (fun _ => advances (readClosing_gives rfl) (by decide) less) fun _ => ?_
  refine .ite (fun _ => advances readFlowEntry_gives (by decide) less) fun _ => ?_
  refine (Meets.andM (fun _ => gapFollows_here) fun _ h _ => h).bind fun _ =>
    .ite (fun _ => advances readBlockEntry_gives (by decide) less) fun _ => ?_
  refine (Meets.andM (fun _ => Meets.orM (fun _ => gapFollows_here) fun _ h _ => h)
    fun _ h _ => h).bind fun _ =>
    .ite (fun _ => advances readKey_gives (by decide) less) fun _ => ?_
  have value_here : Gives text (Ready I w (Sees n v)) (pure (v.head == ':') <&&> seesValue)
      fun value s => Ready I w (Sees n v) s ∧
        (value = false → v.head = ':' → isGap v.next = false) :=
    Meets.andM (fun _ => seesValue_sees.weaken (fun _ => id) fun _ _ h => ⟨h.1, fun no _ => h.2 no⟩)
      fun _ h other => ⟨h, fun _ colon => absurd colon (by simpa using other)⟩
  refine value_here.bind_fact fun _ solid =>
    .ite (fun _ => advances readValue_gives (by decide) less) fun noValue => ?_
  refine .ite (fun _ => advances (readName_gives _ fun _ => rfl) (by decide) less) fun _ => ?_
  refine .ite (fun _ => advances (readName_gives _ fun _ => rfl) (by decide) less) fun _ => ?_
  refine .ite (fun _ => advances readTag_gives (by decide) less) fun _ => ?_
  refine .ite (fun _ => advances (readBlockScalar_gives nofun) (by decide) less) fun _ => ?_
  refine .ite (fun _ => advances (readBlockScalar_gives nofun) (by decide) less) fun _ => ?_
  refine .ite (fun _ => advances (readQuoted_gives _ nofun) (by decide) less) fun _ => ?_
  refine .ite (fun _ => advances (readQuoted_gives _ nofun) (by decide) less) fun _ => ?_
  refine seesPlain_sees.bind_fact fun _ may => .ite (fun plain => ?_) fun _ => ?_
  · exact (readPlain_gives there (may plain) (solid (Bool.eq_false_iff.mpr noValue))).weaken
      (fun _ => id) fun _ _ h => h.advanced (Nat.add_le_add_left (by decide) w) less
  · exact position_gives.bind fun p => Meets.of_imp (throw_gives _) fun _ _ => trivial

end Lex

/-- What is known of the tokens that are read, with the fault that stops them, if there is one. -/
structure Token.Reads (I : Invariant text) (most : Nat) (tokens : List VersionedToken)
    (fault : Option Fault) : Prop where
  sound : ∀ t ∈ tokens, t.token.Sound I
  short : tokens.length ≤ most
  explained : ∀ f ∈ fault, f.Explained text
  ends : fault = none → ∃ t ∈ tokens, t.token.kind = .streamEnd

namespace Lexer

variable {I : Invariant text} {n w : Nat} {P : Cursor → List Bracket → Version → Prop} {s : Lexer}

theorem release_ready (h : Lex.Ready I w P s) :
    Lex.Ready I (w - s.release.1.length) P s.release.2 := by
  refine ⟨h.cursor, fun t ht => h.queue t (List.mem_of_mem_drop ht), h.candidates, ?_,
    h.unfinished, h.known⟩
  have waits := h.pending
  simp only [release, pending, List.length_take, List.length_drop] at waits ⊢
  omega

theorem length_release_le (h : Lex.Ready I w P s) : s.release.1.length ≤ w := by
  refine le_trans ?_ h.pending
  simp only [release, pending, List.length_take]
  omega

theorem stopped_reads {most : Nat} {fault : Fault} (explained : fault.Explained text) :
    Token.Reads I most [] (some fault) :=
  ⟨List.forall_mem_nil _, Nat.zero_le _, by simpa using explained, nofun⟩

/-- With a step for each character and one more the end of the text is reached, unless a fault stops
the tokens. -/
theorem run_reads (fuel : Nat) (h : Lex.Ready I w (Lex.Fewer fuel) s) :
    Token.Reads I (w + 4 * fuel) (run fuel s).1 (run fuel s).2 := by
  induction fuel generalizing w s with
  | zero => exact absurd h.known (Nat.not_lt_zero _)
  | succ fuel ih =>
    have left : Lex.Ready I w (Lex.Left fuel) s :=
      h.mono (Nat.le_refl w) fun _ _ _ => Nat.le_of_lt_succ
    have gives := Lex.readToken_gives (I := I) (n := fuel) (w := w)
    rw [run]
    cases read : Lex.readToken.run s with
    | error fault => exact stopped_reads (gives.error left read)
    | ok x =>
      obtain ⟨⟨⟩, s₁⟩ := x
      have token := gives.ok left read
      dsimp only
      split
      next finished =>
        have ended := token.resolve_left fun fewer => by simp [fewer.unfinished] at finished
        obtain ⟨t, waits, last⟩ := ended.token
        have short := ended.pending
        refine ⟨List.forall_mem_map.mpr ended.queue, ?_, by simp, fun _ =>
          ⟨_, List.mem_map_of_mem waits, last⟩⟩
        rw [pending] at short
        rw [List.length_map]
        omega
      next unfinished =>
        have fewer := token.resolve_right fun ended => unfinished ended.finished
        split
        next fault drop =>
          split at drop
          · cases drop
          · exact stopped_reads (Lex.dropStale_gives.error fewer drop)
        next s₂ drop =>
          have kept : Lex.Ready I (w + 4) (Lex.Fewer fuel) s₂ := by
            split at drop
            · cases drop
              exact fewer
            · exact Lex.dropStale_gives.ok fewer drop
          have later := ih (release_ready kept)
          have few := length_release_le kept
          refine ⟨List.forall_mem_append.mpr ⟨List.forall_mem_map.mpr fun t ready =>
            kept.queue t (List.mem_of_mem_take ready), later.sound⟩, ?_, later.explained, ?_⟩
          · have := later.short
            rw [List.length_append, List.length_map]
            omega
          · intro unstopped
            obtain ⟨t, among, last⟩ := later.ends unstopped
            exact ⟨t, List.mem_append_right _ among, last⟩

end Lexer

/-- What is known of the tokens of a text. -/
theorem Token.reads_ofText (text : List Char) :
    Token.Reads (.ofText text) (4 * (text.length + 2)) (Token.ofText text).1
      (Token.ofText text).2 := by
  have whole := (Cursor.within_ofText text).rest.length_le
  have ready : Lex.Ready (.ofText text) 0 (Lex.Fewer (text.length + 2)) (.ofText text) :=
    ⟨Invariant.holds_ofText text, List.forall_mem_nil _, List.forall_mem_nil _, Nat.le_refl 0, rfl,
      Nat.lt_of_le_of_lt whole (Nat.lt_add_of_pos_right (by decide))⟩
  have reads := Lexer.run_reads _ ready
  rwa [Nat.zero_add] at reads

end FlowLint.Yaml
