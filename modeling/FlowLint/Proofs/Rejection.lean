import FlowLint.Proofs.Nesting
import FlowLint.Proofs.Written

/-! Which documents are refused, and why. The builder fails at an event exactly if the event breaks
a rule (`Written.exact`), so a stream of events, cut off or not, is refused with the first violation
in it, and with nothing else (`ofEvents_refused_iff`). -/

namespace FlowLint.Tree

open Yaml (Event Position ScalarStyle)

variable {lines : List String}

namespace Builder

/-- The builder takes the events one after the other until one breaks a rule, and fails with that;
if none does, it ends in a state with `P`. -/
def Exact (lines : List String) (b : Builder) : List (Event × Moment) → (Builder → Prop) → Prop
  | [], P => P b
  | m :: rest, P =>
    (∀ e, step lines b m.1 = .error e ↔ m.2.Violates e) ∧
      ∀ b', step lines b m.1 = .ok b' → Exact lines b' rest P

variable {b b' : Builder} {ms ms' : List (Event × Moment)} {P Q : Builder → Prop}

theorem exact_append :
    Exact lines b (ms ++ ms') P ↔ Exact lines b ms fun b' => Exact lines b' ms' P := by
  induction ms generalizing b with
  | nil => rfl
  | cons m rest ih => simp only [List.cons_append, Exact, ih]

theorem Exact.mono (h : Exact lines b ms P) (weaker : ∀ b', P b' → Q b') :
    Exact lines b ms Q := by
  induction ms generalizing b with
  | nil => exact weaker b h
  | cons m rest ih => exact ⟨h.1, fun b' hb' => ih (h.2 b' hb')⟩

/-- A step that breaks no rule. -/
theorem exact_cons_ok {m : Event × Moment} (stepped : step lines b m.1 = .ok b')
    (quiet : ∀ e, ¬ m.2.Violates e) (further : Exact lines b' ms P) :
    Exact lines b (m :: ms) P := by
  refine ⟨fun e => ⟨fun h => ?_, fun h => absurd h (quiet e)⟩, fun b'' h => ?_⟩
  · cases stepped.symm.trans h
  · cases stepped.symm.trans h
    exact further

/-- A step that breaks a rule is the last one. -/
theorem exact_cons_error {m : Event × Moment} {e : BuildError}
    (stepped : step lines b m.1 = .error e) (violates : ∀ e', m.2.Violates e' ↔ e = e') :
    Exact lines b (m :: ms) P := by
  refine ⟨fun e' => ?_, fun b' h => ?_⟩
  · rw [stepped, violates, Except.error.injEq]
  · cases stepped.symm.trans h

theorem Exact.take (h : Exact lines b ms P) (n : Nat) :
    Exact lines b (ms.take n) fun _ => True := by
  rw [← List.take_append_drop n ms, exact_append] at h
  exact h.mono fun _ _ => trivial

end Builder

theorem firstViolation_nil {e : BuildError} : ¬ FirstViolation [] e := by
  rintro ⟨before, m, after, split, -⟩
  simp at split

theorem firstViolation_cons {m : Event × Moment} {rest : List (Event × Moment)} {e : BuildError} :
    FirstViolation (m :: rest) e ↔
      m.2.Violates e ∨ (∀ e', ¬ m.2.Violates e') ∧ FirstViolation rest e := by
  constructor
  · rintro ⟨before, m', after, split, violates, quiet⟩
    cases before with
    | nil =>
      cases split
      exact .inl violates
    | cons x before =>
      cases split
      obtain ⟨here, later⟩ := List.forall_mem_cons.mp quiet
      exact .inr ⟨here, before, m', after, rfl, violates, later⟩
  · rintro (violates | ⟨here, before, m', after, rfl, violates, later⟩)
    · exact ⟨[], m, rest, rfl, violates, nofun⟩
    · exact ⟨m :: before, m', after, rfl, violates, List.forall_mem_cons.mpr ⟨here, later⟩⟩

theorem exists_firstViolation_iff {ms : List (Event × Moment)} :
    (∃ e, FirstViolation ms e) ↔ ∃ m ∈ ms, ∃ e, m.2.Violates e := by
  induction ms with
  | nil => simp [firstViolation_nil]
  | cons m rest ih =>
    simp only [firstViolation_cons, List.exists_mem_cons_iff, ← ih]
    constructor
    · rintro ⟨e, violates | ⟨-, later⟩⟩
      · exact .inl ⟨e, violates⟩
      · exact .inr ⟨e, later⟩
    · intro h
      by_cases here : ∃ e, m.2.Violates e
      · exact here.imp fun e violates => .inl violates
      · obtain ⟨e, later⟩ := h.resolve_left here
        exact ⟨e, .inr ⟨not_exists.mp here, later⟩⟩

/-- What one step does, a run does: it fails with the first violation, and only with that. -/
theorem Builder.Exact.run_eq_error_iff {b : Builder} {ms : List (Event × Moment)}
    {P : Builder → Prop} (h : Exact lines b ms P) {e : BuildError} :
    run lines b (ms.map (·.1)) = .error e ↔ FirstViolation ms e := by
  induction ms generalizing b with
  | nil => exact ⟨nofun, fun h => absurd h firstViolation_nil⟩
  | cons m rest ih =>
    rw [List.map_cons, run_cons, firstViolation_cons]
    cases stepped : step lines b m.1 with
    | error e' =>
      have violates := (h.1 e').mp stepped
      constructor
      · intro same
        cases same
        exact .inl violates
      · rintro (other | ⟨quiet, -⟩)
        · exact stepped.symm.trans ((h.1 e).mpr other)
        · exact absurd violates (quiet e')
    | ok b' =>
      have quiet : ∀ e', ¬ m.2.Violates e' := by
        intro e' violates
        rw [(h.1 e').mpr violates] at stepped
        cases stepped
      simp only [quiet, not_false_eq_true, implies_true, true_and, false_or]
      exact ih (h.2 b' stepped)

theorem Written.isCollection_eq {earlier : List Written} {w t : Written}
    (h : w.target? earlier = some t) : t.isCollection = t.text?.isNone := by
  cases t with
  | «alias» name p =>
    cases w with
    | «alias» => simpa [anchor?] using List.find?_some h
    | scalar | sequence | mapping => cases h
  | scalar | sequence | mapping => rfl

namespace Builder

/-- What is read of a node that is no alias is of the kind that is written, with the same text. -/
def IsRead (w : Written) (n : Node) : Prop := n.scalar?.map (·.value) = w.text?

/-- Aliases are resolved to what was last read under their names. -/
def Anchored (b : Builder) (earlier : List Written) : Prop :=
  ∀ name, Option.Rel IsRead (Written.lastNamed? earlier name) (b.anchors.lookup name)

def keysOf (entries : List (Scalar × Node)) : List (String × Nat) :=
  entries.map fun e => (e.1.value, e.1.origin.line)

/-- What is read next goes where the moment says: it is a key of the innermost mapping, which has
the given keys, or it is no key. -/
def Fits (frames : List Frame) : Option (List (String × Nat)) → Prop
  | none => ∀ o entries outer, frames ≠ .mapping o entries none :: outer
  | some keys => ∃ o entries outer, frames = .mapping o entries none :: outer ∧
      keysOf entries = keys ∧ (keys.map (·.1)).Nodup

variable {b b' : Builder} {earlier : List Written} {w : Written} {n : Node}

theorem attach_anchors (h : b.attach n = .ok b') : b'.anchors = b.anchors := by
  rcases attach_nodes h with ⟨-, rfl⟩ | ⟨f, f', outer, -, rfl, -⟩ <;> rfl

/-- What finishing a node adds to the nodes that aliases can refer to. -/
def note (b : Builder) (n : Node) : Builder :=
  { b with anchors := (n.origin.anchor.map (·, n)).toList ++ b.anchors }

theorem finish_eq (b : Builder) (n : Node) : b.finish n = (b.note n).attach n := by
  rw [finish, note]
  cases n.origin.anchor <;> rfl

theorem anchored_note (h : Anchored b earlier) (anchor : n.origin.anchor = w.anchor?)
    (read : IsRead w n) : Anchored (b.note n) (w :: earlier) := by
  intro name
  rw [note, Written.lastNamed?, List.find?_cons, anchor]
  cases own : w.anchor? with
  | none => exact h name
  | some other =>
    by_cases same : name = other
    · subst same
      simpa using read
    · have differ : (name == other) = false := by simpa using same
      have differ' : (some other == some name) = false := by simpa using Ne.symm same
      simp only [Option.map_some, Option.toList_some, List.singleton_append, List.lookup_cons,
        differ, differ']
      exact h name

theorem exists_attach (fits : Fits b.frames none) (n : Node) : ∃ b', b.attach n = .ok b' := by
  unfold attach
  split
  · exact ⟨_, rfl⟩
  · exact ⟨_, rfl⟩
  · exact ⟨_, rfl⟩
  next o entries outer frames => exact absurd frames (fits o entries outer)

section

variable {o : Origin} {entries : List (Scalar × Node)} {outer : List Frame}
  (frames : b.frames = .mapping o entries none :: outer)

include frames

theorem attach_collection (collection : n.scalar? = none) :
    b.attach n = .error (.keyNotScalar n.origin.line n.origin.column) := by
  cases n with
  | scalar s => cases collection
  | sequence | mapping => simp only [attach, frames]

theorem attach_duplicate {key : Scalar} {first : Scalar × Node}
    (found : entries.find? (·.1.value == key.value) = some first) :
    b.attach (.scalar key) =
      .error (.duplicateKey key.value first.1.origin.line key.origin.line key.origin.column) := by
  simp only [attach, frames, found]

theorem attach_new {key : Scalar} (new : entries.find? (·.1.value == key.value) = none) :
    b.attach (.scalar key) = .ok { b with frames := .mapping o entries (some key) :: outer } := by
  simp only [attach, frames, new]

end

/-- Of keys with different texts, the one with a given text is found. -/
theorem mem_keysOf_iff {entries : List (Scalar × Node)} {text : String} {first : Nat}
    (distinct : ((keysOf entries).map (·.1)).Nodup) :
    (text, first) ∈ keysOf entries ↔
      ∃ e, entries.find? (·.1.value == text) = some e ∧ e.1.origin.line = first := by
  have entry : ∀ e, entries.find? (·.1.value == text) = some e →
      (text, e.1.origin.line) ∈ keysOf entries := by
    intro e found
    have same : e.1.value = text := by simpa using List.find?_some found
    exact List.mem_map.mpr ⟨e, List.mem_of_find?_eq_some found, by rw [same]⟩
  constructor
  · intro there
    obtain ⟨e', he', pair⟩ := List.mem_map.mp there
    obtain ⟨same, -⟩ := Prod.mk.inj pair
    have isFound : (entries.find? (·.1.value == text)).isSome =
        true := List.find?_isSome.mpr ⟨e', he', by simp [same]⟩
    obtain ⟨e, found⟩ := Option.isSome_iff_exists.mp isFound
    have pairs := List.inj_on_of_nodup_map distinct (entry e found) there rfl
    exact ⟨e, found, (Prod.mk.inj pairs).2⟩
  · rintro ⟨e, found, rfl⟩
    exact entry e found

end Builder

/-- What is read breaks a rule only as a key, if it is not an alias for nothing. -/
theorem violates_reading_iff {w target : Written} {earlier : List Written}
    {keys : Option (List (String × Nat))} (resolved : w.target? earlier = some target)
    {e : BuildError} :
    (Moment.reading w earlier keys).Violates e ↔ ∃ ks, keys = some ks ∧
      (target.text? = none ∧ e = .keyNotScalar (w.start.line + 1) (w.start.column + 1) ∨
        ∃ text first, target.text? = some text ∧ (text, first) ∈ ks ∧
          e = .duplicateKey text first (w.start.line + 1) (w.start.column + 1)) := by
  constructor
  · intro h
    cases h with
    | undefinedAlias undefined =>
      rw [Written.target?, undefined] at resolved
      cases resolved
    | keyNotScalar isTarget collection =>
      cases isTarget.symm.trans resolved
      rw [Written.isCollection_eq resolved, Option.isNone_iff_eq_none] at collection
      exact ⟨_, rfl, .inl ⟨collection, rfl⟩⟩
    | duplicateKey text earlier =>
      rw [Written.keyText?, resolved] at text
      exact ⟨_, rfl, .inr ⟨_, _, text, earlier, rfl⟩⟩
  · rintro ⟨ks, rfl, ⟨collection, rfl⟩ | ⟨text, first, isText, earlier, rfl⟩⟩
    · refine .keyNotScalar resolved ?_
      rw [Written.isCollection_eq resolved, collection]
      rfl
    · refine .duplicateKey ?_ earlier
      rw [Written.keyText?, resolved]
      exact isText

namespace Builder

variable {b b' : Builder} {earlier : List Written} {w : Written} {n : Node}

/-- Putting a node into its place fails exactly if it is a key that breaks a rule. -/
theorem attach_eq_error_iff {keys : Option (List (String × Nat))} (fits : Fits b.frames keys)
    {target : Written} (resolved : w.target? earlier = some target) (read : IsRead target n)
    (line : n.origin.line = w.start.line + 1) (column : n.origin.column = w.start.column + 1)
    (e : BuildError) :
    b.attach n = .error e ↔ (Moment.reading w earlier keys).Violates e := by
  rw [violates_reading_iff resolved, ← line, ← column]
  cases keys with
  | none =>
    obtain ⟨b', attached⟩ := exists_attach fits n
    rw [attached]
    exact ⟨nofun, fun ⟨_, key, _⟩ => nomatch key⟩
  | some ks =>
    obtain ⟨o, entries, outer, frames, rfl, distinct⟩ := fits
    simp only [Option.some.injEq, exists_eq_left']
    cases hn : n.scalar? with
    | none =>
      rw [IsRead, hn, Option.map_none] at read
      simp [attach_collection frames hn, ← read, eq_comm]
    | some key =>
      rw [IsRead, hn, Option.map_some] at read
      have isScalar : n = .scalar key := by
        cases n <;> cases hn
        rfl
      subst isScalar
      simp only [← read, reduceCtorEq, false_and, false_or, Option.some.injEq, exists_eq_left',
        exists_and_left, mem_keysOf_iff distinct]
      cases found : entries.find? (·.1.value == key.value) with
      | none =>
        simp [attach_new frames found]
      | some first =>
        simp [attach_duplicate frames found, Node.origin, eq_comm]

theorem attach_item {o : Origin} {done : List Node} {outer : List Frame}
    (frames : b.frames = .sequence o done :: outer) (h : b.attach n = .ok b') :
    b'.frames = .sequence o (n :: done) :: outer := by
  simp only [attach, frames] at h
  cases h
  rfl

theorem attach_value {o : Origin} {done : List (Scalar × Node)} {key : Scalar}
    {outer : List Frame} (frames : b.frames = .mapping o done (some key) :: outer)
    (h : b.attach n = .ok b') : b'.frames = .mapping o ((key, n) :: done) none :: outer := by
  simp only [attach, frames] at h
  cases h
  rfl

/-- What is put in the place of a key is a scalar with a new text. -/
theorem exists_key_of_attach {o : Origin} {done : List (Scalar × Node)} {outer : List Frame}
    (frames : b.frames = .mapping o done none :: outer) (h : b.attach n = .ok b') :
    ∃ key, n = .scalar key ∧ b'.frames = .mapping o done (some key) :: outer ∧
      done.find? (·.1.value == key.value) = none := by
  cases n with
  | sequence | mapping =>
    rw [attach_collection frames rfl] at h
    cases h
  | scalar key =>
    cases found : done.find? (·.1.value == key.value) with
    | some first =>
      rw [attach_duplicate frames found] at h
      cases h
    | none =>
      rw [attach_new frames found] at h
      cases h
      exact ⟨key, rfl, rfl, found⟩

/-- The builder `b'` is `b` with what is written put into its place. -/
def Placed (earlier : List Written) (w : Written) (b b' : Builder) : Prop :=
  ∃ b₁ n, b₁.frames = b.frames ∧ Anchored b₁ (w.readAfter earlier) ∧
    n.scalar?.map (·.value) = w.keyText? earlier ∧ n.origin.line = w.start.line + 1 ∧
    b₁.attach n = .ok b'

namespace Placed

theorem anchored (h : Placed earlier w b b') : Anchored b' (w.readAfter earlier) := by
  obtain ⟨b₁, n, -, anchored, -, -, attached⟩ := h
  intro name
  rw [attach_anchors attached]
  exact anchored name

theorem root (h : Placed earlier w b b') (frames : b.frames = []) : b'.root.isSome = true := by
  obtain ⟨b₁, n, same, -, -, -, attached⟩ := h
  simp only [attach, same.trans frames] at attached
  cases attached
  rfl

theorem item {o : Origin} {done : List Node} {outer : List Frame} (h : Placed earlier w b b')
    (frames : b.frames = .sequence o done :: outer) :
    ∃ n, b'.frames = .sequence o (n :: done) :: outer := by
  obtain ⟨b₁, n, same, -, -, -, attached⟩ := h
  exact ⟨n, attach_item (same.trans frames) attached⟩

theorem value {o : Origin} {done : List (Scalar × Node)} {key : Scalar} {outer : List Frame}
    (h : Placed earlier w b b') (frames : b.frames = .mapping o done (some key) :: outer) :
    ∃ n, b'.frames = .mapping o ((key, n) :: done) none :: outer := by
  obtain ⟨b₁, n, same, -, -, -, attached⟩ := h
  exact ⟨n, attach_value (same.trans frames) attached⟩

/-- A key that is put into its place has a text that no key before it has. -/
theorem key {o : Origin} {done : List (Scalar × Node)} {outer : List Frame}
    (h : Placed earlier w b b') (frames : b.frames = .mapping o done none :: outer) :
    ∃ key, b'.frames = .mapping o done (some key) :: outer ∧
      w.keyText? earlier = some key.value ∧ key.origin.line = w.start.line + 1 ∧
      key.value ∉ (keysOf done).map (·.1) := by
  obtain ⟨b₁, n, same, -, text, line, attached⟩ := h
  obtain ⟨key, rfl, frames', new⟩ := exists_key_of_attach (same.trans frames) attached
  refine ⟨key, frames', text.symm, line, fun there => ?_⟩
  obtain ⟨pair, hpair, twice⟩ := List.mem_map.mp there
  obtain ⟨e, he, rfl⟩ := List.mem_map.mp hpair
  exact List.find?_eq_none.mp new e he (beq_iff_eq.mpr twice)

end Placed

/-- The last event of a node that is no alias. -/
theorem exact_finish {b₂ : Builder} {e : Event} {earlier' : List Written}
    {keys : Option (List (String × Nat))} (own : ∀ l, w.target? l = some w)
    (after : w.readAfter earlier = w :: earlier')
    (stepped : step lines b₂ e = Builder.finish { b₂ with frames := b.frames } n)
    (anchored : Anchored b₂ earlier') (fits : Fits b.frames keys) (read : IsRead w n)
    (anchor : n.origin.anchor = w.anchor?) (line : n.origin.line = w.start.line + 1)
    (column : n.origin.column = w.start.column + 1) :
    Exact lines b₂ [(e, .reading w earlier' keys)] (Placed earlier w b) := by
  rw [finish_eq] at stepped
  refine ⟨fun e' => ?_, fun b' attached => ?_⟩
  · rw [stepped]
    exact attach_eq_error_iff (b := note { b₂ with frames := b.frames } n) fits (own _) read line
      column e'
  · have noted := anchored_note (b := { b₂ with frames := b.frames }) anchored anchor read
    rw [← after] at noted
    refine ⟨note { b₂ with frames := b.frames } n, n, rfl, noted, ?_, line,
      stepped.symm.trans attached⟩
    rw [Written.keyText?, own]
    exact read

/-- The event of an alias. -/
theorem exact_alias {name : String} {p : Position} {keys : Option (List (String × Nat))}
    (anchored : Anchored b earlier) (fits : Fits b.frames keys) :
    Exact lines b [(.alias name p, .reading (.alias name p) earlier keys)]
      (Placed earlier (.alias name p) b) := by
  cases found : Written.lastNamed? earlier name with
  | none =>
    have unknown : b.anchors.lookup name = none := by
      have rel := anchored name
      rw [found] at rel
      cases h : b.anchors.lookup name with
      | none => rfl
      | some n =>
        rw [h] at rel
        cases rel
    refine exact_cons_error (e := .undefinedAlias name (p.line + 1) (p.column + 1))
      (by simp only [step, unknown]) fun e => ⟨fun h => ?_, fun h => ?_⟩
    · cases h with
      | undefinedAlias => rfl
      | keyNotScalar isTarget => cases found.symm.trans isTarget
      | duplicateKey text =>
        rw [Written.keyText?, Written.target?, found] at text
        cases text
    · subst h
      exact .undefinedAlias found
  | some target =>
    obtain ⟨n, known, read⟩ : ∃ n, b.anchors.lookup name = some n ∧ IsRead target n := by
      have rel := anchored name
      rw [found] at rel
      cases h : b.anchors.lookup name with
      | none =>
        rw [h] at rel
        cases rel
      | some n =>
        rw [h] at rel
        cases rel with
        | some read => exact ⟨n, rfl, read⟩
    have stepped : step lines b (.alias name p) =
        b.attach (n.withOrigin (originAt .alias (some name) p)) := by
      simp only [step, known]
    have same : IsRead target (n.withOrigin (originAt .alias (some name) p)) := by
      cases n <;> exact read
    have resolved : (Written.alias name p).target? earlier = some target := found
    refine ⟨fun e => ?_, fun b' attached => ?_⟩
    · rw [stepped]
      exact attach_eq_error_iff fits resolved same (by simp; rfl) (by simp; rfl) e
    · refine ⟨b, _, rfl, anchored, ?_, by simp; rfl, stepped.symm.trans attached⟩
      rw [Written.keyText?, resolved]
      exact same

theorem exact_opening {e : Event} {p : Position} {f : Frame} {rest : List (Event × Moment)}
    (stepped : step lines b e = b.openFrame p f)
    (further : Exact lines { b with frames := f :: b.frames } rest Q) :
    Exact lines b ((e, .opening p b.frames.length) :: rest) Q := by
  by_cases full : maxNesting ≤ b.frames.length
  · refine exact_cons_error (stepped.trans (if_pos full)) fun e' => ⟨fun h => ?_, fun h => ?_⟩
    · cases h
      rfl
    · subst h
      exact .tooDeep full
  · refine exact_cons_ok (stepped.trans (if_neg full)) (fun e' h => ?_) further
    cases h
    contradiction

end Builder

open Builder

mutual

/-- The builder takes the events of a node and puts the node into its place, or it stops at an event
that breaks a rule. -/
theorem Written.exact {b : Builder} {earlier : List Written} {keys : Option (List (String × Nat))}
    (w : Written) (anchored : Anchored b earlier) (fits : Fits b.frames keys) :
    Exact lines b (w.moments b.frames.length earlier keys) (Placed earlier w b) := by
  cases w with
  | «alias» name p => exact exact_alias anchored fits
  | scalar value style anchor p q =>
    exact exact_finish (fun _ => rfl) rfl rfl anchored fits rfl rfl rfl rfl
  | sequence flow anchor p items =>
    rw [Written.moments]
    let opened := { b with frames := .sequence (originAt (.ofFlow flow) anchor p) [] :: b.frames }
    have inner := exact_items (b := opened) items anchored rfl
    refine exact_opening rfl (exact_append.mpr (inner.mono fun b₂ closing => ?_))
    obtain ⟨anchored₂, done, frames⟩ := closing
    have stepped : step lines b₂ .sequenceEnd = Builder.finish { b₂ with frames := b.frames }
        (.sequence (originAt (.ofFlow flow) anchor p) done.reverse) := by
      simp only [step, frames]
    exact exact_finish (fun _ => rfl) rfl stepped anchored₂ fits rfl rfl rfl rfl
  | mapping flow anchor p entries =>
    rw [Written.moments]
    let opened :=
      { b with frames := .mapping (originAt (.ofFlow flow) anchor p) [] none :: b.frames }
    have inner := exact_entries (b := opened) entries anchored rfl List.nodup_nil
    refine exact_opening rfl (exact_append.mpr (inner.mono fun b₂ closing => ?_))
    obtain ⟨anchored₂, done, frames⟩ := closing
    have stepped : step lines b₂ .mappingEnd = Builder.finish { b₂ with frames := b.frames }
        (.mapping (originAt (.ofFlow flow) anchor p) done.reverse) := by
      simp only [step, frames]
    exact exact_finish (fun _ => rfl) rfl stepped anchored₂ fits rfl rfl rfl rfl

theorem exact_items {b : Builder} {earlier : List Written} {o : Origin} {done : List Node}
    {outer : List Frame} (items : List Written) (anchored : Anchored b earlier)
    (frames : b.frames = .sequence o done :: outer) :
    Exact lines b (momentsOfItems (outer.length + 1) earlier items) fun b' =>
      Anchored b' (Written.itemsReadAfter earlier items) ∧
        ∃ done', b'.frames = .sequence o done' :: outer := by
  match items with
  | [] => exact ⟨anchored, done, frames⟩
  | w :: rest =>
    have depth : b.frames.length = outer.length + 1 := by rw [frames, List.length_cons]
    have read : Exact lines b (w.moments b.frames.length earlier none) (Placed earlier w b) :=
      w.exact anchored (by simp [Fits, frames])
    rw [depth] at read
    refine exact_append.mpr (read.mono fun b' placed => ?_)
    obtain ⟨n, frames'⟩ := placed.item frames
    exact exact_items rest placed.anchored frames'

theorem exact_entries {b : Builder} {earlier : List Written} {o : Origin}
    {done : List (Scalar × Node)} {outer : List Frame} (entries : List (Written × Written))
    (anchored : Anchored b earlier) (frames : b.frames = .mapping o done none :: outer)
    (distinct : ((keysOf done).map (·.1)).Nodup) :
    Exact lines b (momentsOfEntries (outer.length + 1) earlier (keysOf done) entries) fun b' =>
      Anchored b' (Written.entriesReadAfter earlier entries) ∧
        ∃ done', b'.frames = .mapping o done' none :: outer := by
  match entries with
  | [] => exact ⟨anchored, done, frames⟩
  | (key, w) :: rest =>
    have depth : b.frames.length = outer.length + 1 := by rw [frames, List.length_cons]
    have readKey : Exact lines b (key.moments b.frames.length earlier (some (keysOf done)))
        (Placed earlier key b) := key.exact anchored ⟨o, done, outer, frames, rfl, distinct⟩
    rw [depth] at readKey
    refine exact_append.mpr (readKey.mono fun b₁ placedKey => ?_)
    obtain ⟨k, frames₁, text, line, new⟩ := placedKey.key frames
    have depth₁ : b₁.frames.length = outer.length + 1 := by rw [frames₁, List.length_cons]
    have read : Exact lines b₁ (w.moments b₁.frames.length (key.readAfter earlier) none)
        (Placed (key.readAfter earlier) w b₁) :=
      w.exact placedKey.anchored (by simp [Fits, frames₁])
    rw [depth₁] at read
    refine exact_append.mpr (read.mono fun b₂ placed => ?_)
    obtain ⟨n, frames₂⟩ := placed.value frames₁
    have keys : ((key.keyText? earlier).map (·, key.start.line + 1)).toList ++ keysOf done =
        keysOf ((k, n) :: done) := by
      rw [text, ← line]
      rfl
    rw [keys]
    exact exact_entries rest placed.anchored frames₂ (List.nodup_cons.mpr ⟨new, distinct⟩)

end

/-- A document behind the first one is never begun. -/
theorem exact_furtherDocuments {b : Builder} (root : b.root.isSome = true)
    (documents : List (Position × Written)) :
    Exact lines b (moments false documents) fun _ => True := by
  cases documents with
  | nil => trivial
  | cons d rest =>
    obtain ⟨p, w⟩ := d
    refine exact_cons_error (e := .secondDocument (p.line + 1) (p.column + 1))
      (by simp only [step, root, if_true]) fun e => ⟨fun h => ?_, fun h => ?_⟩
    · cases h
      rfl
    · subst h
      exact .secondDocument

theorem exact_documents (documents : List (Position × Written)) :
    Exact lines {} (moments true documents) fun _ => True := by
  cases documents with
  | nil => trivial
  | cons d rest =>
    obtain ⟨p, w⟩ := d
    have fits : Fits (Builder.frames {}) none := by simp [Fits]
    have read : Exact lines {} (w.moments (Builder.frames {}).length [] none) (Placed [] w {}) :=
      w.exact (fun _ => .none) fits
    refine exact_cons_ok rfl (fun e h => by cases h) ?_
    refine exact_append.mpr (read.mono fun b placed => ?_)
    exact exact_cons_ok rfl (fun e h => by cases h) (exact_furtherDocuments (placed.root rfl) rest)

section

variable {stream : Yaml.EventStream}

theorem ofEvents_eq_build_iff {e : BuildError} :
    Node.ofEvents lines stream = .error (.build e) ↔ run lines {} stream.events = .error e := by
  unfold Node.ofEvents
  cases run lines {} stream.events with
  | error e' => simp
  | ok b => cases stream.fault <;> simp

theorem ofEvents_eq_fault_iff {f : Yaml.Fault} :
    Node.ofEvents lines stream = .error (.fault f) ↔
      stream.fault = some f ∧ ∀ e, run lines {} stream.events ≠ .error e := by
  unfold Node.ofEvents
  cases run lines {} stream.events with
  | error e' => simp
  | ok b => cases stream.fault <;> simp

end

/-- What some documents give when their events break off behind the first `n` of them, with or
without a fault: the first violation among these events, if there is any, else the fault. What
stands behind a violation makes no difference. -/
theorem ofEvents_refused_iff (lines : List String) (documents : List (Position × Written)) (n : Nat)
    (fault : Option Yaml.Fault) :
    (moments true documents).map (·.1) = events documents ∧
    (∀ e, Node.ofEvents lines ⟨(events documents).take n, fault⟩ = .error (.build e) ↔
      FirstViolation ((moments true documents).take n) e) ∧
    ((∃ e, Node.ofEvents lines ⟨(events documents).take n, fault⟩ = .error (.build e)) ↔
      ∃ m ∈ (moments true documents).take n, ∃ e, m.2.Violates e) ∧
    (∀ f, Node.ofEvents lines ⟨(events documents).take n, fault⟩ = .error (.fault f) ↔
      fault = some f ∧ ∀ m ∈ (moments true documents).take n, ∀ e, ¬ m.2.Violates e) ∧
    ∀ e later fault', FirstViolation ((moments true documents).take n) e →
      Node.ofEvents lines ⟨(events documents).take n ++ later, fault'⟩ = .error (.build e) := by
  have ran : ∀ e, run lines {} ((events documents).take n) = .error e ↔
      FirstViolation ((moments true documents).take n) e := by
    intro e
    rw [← map_moments true documents, ← List.map_take]
    exact ((exact_documents documents).take n).run_eq_error_iff
  refine ⟨map_moments true documents, fun e => ofEvents_eq_build_iff.trans (ran e), ?_, fun f => ?_,
    fun e later fault' first => ofEvents_eq_build_iff.mpr ?_⟩
  · simp only [ofEvents_eq_build_iff, ran]
    exact exists_firstViolation_iff
  · rw [ofEvents_eq_fault_iff]
    refine and_congr_right fun _ => ?_
    simp only [ne_eq, ran]
    rw [← not_exists, exists_firstViolation_iff]
    simp only [not_exists, not_and]
  · rw [run_append, (ran e).mpr first]
    rfl

/-- A key that comes twice, the second time with a sequence. -/
def twice : List (Position × Written) :=
  [(⟨0, 0, 0⟩, .mapping false none ⟨0, 0, 0⟩
    [(.scalar "a" .plain none ⟨0, 0, 0⟩ ⟨1, 0, 1⟩, .scalar "1" .plain none ⟨3, 0, 3⟩ ⟨4, 0, 4⟩),
      (.scalar "a" .plain none ⟨5, 1, 0⟩ ⟨6, 1, 1⟩, .sequence true none ⟨8, 1, 3⟩ [])])]

theorem quiet_twice : ∀ m ∈ (moments true twice).take 4, ∀ e, ¬ m.2.Violates e := by
  simp only [twice, moments, Written.moments, momentsOfEntries, List.cons_append, List.nil_append,
    List.take_succ_cons, List.take_zero, List.forall_mem_cons]
  refine ⟨fun e h => ?_, fun e h => ?_, fun e h => ?_, fun e h => ?_, List.forall_mem_nil _⟩
  · cases h
  · cases h with
    | tooDeep full => exact absurd full (by decide)
  · cases h with
    | keyNotScalar isTarget collection =>
      cases isTarget
      cases collection
    | duplicateKey text earlier => cases earlier
  · cases h

/-- In a text with a key that comes twice and a sequence that is not closed, the key is met first;
had the text broken off before it, nothing would be wrong with the keys. -/
theorem ofEvents_refused_twice : ∃ f,
    Event.ofText "a: 1\na: [\n".toList = ⟨(events twice).take 6, some f⟩ ∧
    FirstViolation ((moments true twice).take 6) (.duplicateKey "a" 1 2 1) ∧
    Node.ofEvents ["a: 1", "a: ["] ⟨(events twice).take 6, some f⟩ =
      .error (.build (.duplicateKey "a" 1 2 1)) ∧
    Node.ofEvents ["a: 1", "a: ["] ⟨(events twice).take 4, some f⟩ = .error (.fault f) := by
  have read : (Event.ofText "a: 1\na: [\n".toList).events = (events twice).take 6 ∧
      (Event.ofText "a: 1\na: [\n".toList).fault.isSome = true := by decide +kernel
  obtain ⟨f, fault⟩ := Option.isSome_iff_exists.mp read.2
  have first : FirstViolation ((moments true twice).take 6) (.duplicateKey "a" 1 2 1) :=
    ⟨(moments true twice).take 4, _, [_], rfl, .duplicateKey rfl List.mem_cons_self, quiet_twice⟩
  obtain ⟨-, refused, -⟩ := ofEvents_refused_iff ["a: 1", "a: ["] twice 6 (some f)
  obtain ⟨-, -, -, faulted, -⟩ := ofEvents_refused_iff ["a: 1", "a: ["] twice 4 (some f)
  refine ⟨f, ?_, first, (refused _).mpr first, (faulted f).mpr ⟨rfl, quiet_twice⟩⟩
  rw [← read.1, ← fault]

end FlowLint.Tree
