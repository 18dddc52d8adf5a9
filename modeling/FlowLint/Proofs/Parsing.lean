import FlowLint.Proofs.EventPlaces
import FlowLint.Proofs.Productions
import FlowLint.Proofs.Tokens

/-! The events of a text. Each step of the parser is a production of the grammar, it leaves less to
do, and the events that it finds stand at places of the tokens (`Parse.step_works`). So the steps
that `Event.ofText` takes are enough: the events of a text are those of some documents, or a
beginning of them if a fault stops them, and it is known where they stand, how many they are and
what the fault is (`Event.reads_ofText`). -/

set_option mvcgen.warning false

namespace FlowLint.Yaml

open Std.Do

/-- How many steps without a token a goal asks for. -/
def Goal.weight : Goal → Nat
  | .document bare => if bare then 5 else 1
  | .content => 3
  | .documentEnd => 2
  | .node _ _ => 2
  | .sequenceEntry _ => 1
  | .indentlessEntry => 1
  | .mappingKey _ => 4
  | .mappingValue _ => 3
  | .flowEntry _ first => if first then 4 else 1
  | .pairKey _ => 5
  | .pairValue => 2
  | .pairEnd => 1
  | .flowKey _ first => if first then 5 else 1
  | .flowValue _ => 2
  | .flowEmptyValue _ => 2

/-- The weight of a goal that is worked on next. A key that is not missing takes a token. -/
def Goal.weightBefore (next : Option Token.Kind) : Goal → Nat
  | .mappingKey _ => if next == some .value then 4 else 2
  | g => g.weight

theorem Goal.weightBefore_le (next : Option Token.Kind) (g : Goal) :
    g.weightBefore next ≤ g.weight := by
  cases g with
  | mappingKey p =>
    rw [weightBefore, weight]
    split <;> omega
  | _ => exact Nat.le_refl _

/-- What is left to do when the tokens are read for the goals. -/
def work (tokens : List VersionedToken) : List Goal → Nat
  | [] => 8 * tokens.length
  | g :: rest => 8 * tokens.length + g.weightBefore (tokens[0]?.map (·.token.kind)) +
      (rest.map Goal.weight).sum

theorem work_append_le (tokens : List VersionedToken) (goals rest : List Goal) :
    work tokens (goals ++ rest) ≤ work tokens goals + (rest.map Goal.weight).sum := by
  cases goals with
  | nil =>
    cases rest with
    | nil => exact Nat.le_refl _
    | cons g rest =>
      have := g.weightBefore_le (tokens[0]?.map (·.token.kind))
      simp only [List.nil_append, work, List.map_cons, List.sum_cons]
      omega
  | cons g goals =>
    simp only [List.cons_append, work, List.map_append, List.sum_append]
    omega

theorem work_cons (tokens : List VersionedToken) (g : Goal) (rest : List Goal) :
    work tokens (g :: rest) = work tokens [g] + (rest.map Goal.weight).sum := by
  simp [work]

/-- A token that is taken pays for the goals that it leads to. -/
theorem work_drop_lt {tokens : List VersionedToken} {taken : Nat} (g : Goal) {goals : List Goal}
    (some_taken : 0 < taken) (few : taken ≤ tokens.length)
    (light : (goals.map Goal.weight).sum ≤ 7) :
    work (tokens.drop taken) goals < work tokens [g] := by
  have most : work (tokens.drop taken) goals ≤
      8 * (tokens.drop taken).length + (goals.map Goal.weight).sum := by
    simpa [work] using work_append_le (tokens.drop taken) [] goals
  have least : 8 * tokens.length ≤ work tokens [g] := by
    rw [work]
    omega
  rw [List.length_drop] at most
  omega

theorem work_lighter_lt (tokens : List VersionedToken) (taken : Nat) {g : Goal} {goals : List Goal}
    (lighter : (goals.map Goal.weight).sum < g.weight) (other : ∀ p, g ≠ .mappingKey p) :
    work (tokens.drop taken) goals < work tokens [g] := by
  have most : work (tokens.drop taken) goals ≤
      8 * (tokens.drop taken).length + (goals.map Goal.weight).sum := by
    simpa [work] using work_append_le (tokens.drop taken) [] goals
  have same : g.weightBefore (tokens[0]?.map (·.token.kind)) = g.weight := by
    cases g with
    | mappingKey p => exact absurd rfl (other p)
    | _ => rfl
  rw [List.length_drop] at most
  calc work (tokens.drop taken) goals
      ≤ 8 * tokens.length + (goals.map Goal.weight).sum := by omega
    _ < 8 * tokens.length + g.weight := by omega
    _ = work tokens [g] := by simp [work, same]

/-- The empty key before a value is left for the value, which takes its token. -/
theorem work_mappingValue_lt {tokens : List VersionedToken} {t : VersionedToken} (p : Position)
    (here : tokens[0]? = some t) (value : t.token.kind = .value) :
    work tokens [.mappingValue p] < work tokens [.mappingKey p] := by
  simp [work, Goal.weightBefore, Goal.weight, here, value]

/-- A value that is missing is left for the next key, which takes a token. -/
theorem work_mappingKey_lt {tokens : List VersionedToken} {t : VersionedToken} (p : Position)
    (here : tokens[0]? = some t) (other : t.token.kind ≠ .value) :
    work tokens [.mappingKey p] < work tokens [.mappingValue p] := by
  simp [work, Goal.weightBefore, Goal.weight, here, other]

namespace Parse

variable {α : Type}

/-- The tokens that are left are among `T`. They go on to the end of the text, or a fault stops
them. -/
structure Sound (T : List VersionedToken) (s : Parser) : Prop where
  among : ∀ t ∈ s.tokens, t ∈ T
  ends : s.barrier = none → ∃ t ∈ s.tokens, t.token.kind = .streamEnd

/-- So many tokens have been taken since, none of them the last, and these goals are new; `fact` is
what is known besides. -/
structure Reached (s₀ : Parser) (taken : Nat) (goals : List Goal) (fact : Prop) (s : Parser) :
    Prop where
  barrier : s.barrier = s₀.barrier
  tokens : s.tokens = s₀.tokens.drop taken
  goals : s.goals = goals ++ s₀.goals
  few : taken ≤ s₀.tokens.length
  inside : ∀ t ∈ s₀.tokens.take taken, t.token.kind ≠ .streamEnd
  fact : fact

variable {T : List VersionedToken} {s₀ : Parser} {taken : Nat} {goals : List Goal}
  {fact fact' : Prop}

theorem Reached.imp {s : Parser} (h : Reached s₀ taken goals fact s) (weaker : fact → fact') :
    Reached s₀ taken goals fact' s :=
  ⟨h.barrier, h.tokens, h.goals, h.few, h.inside, weaker h.fact⟩

theorem Reached.forget {s : Parser} (h : Reached s₀ taken goals fact s) :
    Reached s₀ taken goals True s := h.imp fun _ => trivial

theorem Reached.sound {s : Parser} (h : Reached s₀ taken goals fact s) (sound : Sound T s₀) :
    Sound T s := by
  refine ⟨fun t ht => sound.among t (List.mem_of_mem_drop (h.tokens ▸ ht)), fun unstopped => ?_⟩
  obtain ⟨t, among, last⟩ := sound.ends (h.barrier ▸ unstopped)
  rw [← List.take_append_drop taken s₀.tokens, ← h.tokens] at among
  rcases List.mem_append.mp among with before | behind
  · exact absurd last (h.inside t before)
  · exact ⟨t, behind, last⟩

/-- Only a document may find no events since the text ends, and what stops them is a fault of the
text or what stops the tokens. -/
structure Fails (s₀ : Parser) (g : Goal) (e : Option Fault) : Prop where
  ended : e = none → g.form = .documents
  explained : ∀ f ∈ e, f ∈ s₀.barrier ∨ f.isOfText = true

theorem fails_none {g : Goal} (h : g.form = .documents) : Fails s₀ g none := ⟨fun _ => h, by simp⟩

theorem fails_some {g : Goal} {f : Fault} (h : f.isOfText = true) : Fails s₀ g (some f) :=
  ⟨nofun, fun _ same => .inr (Option.some.inj same ▸ h)⟩

/-- How many tokens the properties of a node are. -/
def Properties.count (props : Properties) : Nat :=
  props.anchor.isSome.toNat + props.tagged.toNat

section Readers

variable (s₀) (g : Goal) (sound : Sound T s₀)
include sound

theorem peek_reached (taken : Nat) (goals : List Goal) (fact : Prop) :
    Meets (Reached s₀ taken goals fact) peek
      (fun t => Reached s₀ taken goals (fact ∧ s₀.tokens[taken]? = some t ∧ t ∈ T))
      (Fails s₀ g) := by
  have throw_here := throw_meets (α := VersionedToken) (E := Fails s₀ g)
    (Q := fun t => Reached s₀ taken goals (fact ∧ s₀.tokens[taken]? = some t ∧ t ∈ T))
  mvcgen [peek, throw_here, -Spec.throw_MonadExcept]
  next s h t rest found =>
    have here : s₀.tokens[taken]? = some t := by
      rw [← List.head?_drop, ← h.tokens, found]
      rfl
    have mem : t ∈ T := (h.sound sound).among t (found ▸ List.mem_cons_self)
    exact h.imp fun fact => ⟨fact, here, mem⟩
  next s h none =>
    refine ⟨fun unstopped => ?_, fun f hf => .inl (h.barrier ▸ hf)⟩
    obtain ⟨t, among, -⟩ := (h.sound sound).ends unstopped
    rw [none] at among
    cases among

theorem next_reached (taken : Nat) (goals : List Goal) (fact : Prop)
    (inside : fact → ∀ t ∈ s₀.tokens[taken]?, t.token.kind ≠ .streamEnd) :
    Meets (Reached s₀ taken goals fact) next (fun _ => Reached s₀ (taken + 1) goals fact)
      (Fails s₀ g) := by
  have peek_here := peek_reached s₀ g sound
  mvcgen [next, peek_here]
  next t s h _ =>
    obtain ⟨known, here, -⟩ := h.fact
    refine ⟨h.barrier, ?_, h.goals, ?_, ?_, known⟩
    · change s.tokens.tail = _
      rw [h.tokens, List.tail_drop]
    · exact Nat.succ_le_of_lt (List.getElem?_eq_some_iff.mp here).1
    · rw [List.take_add_one]
      refine List.forall_mem_append.mpr ⟨h.inside, ?_⟩
      rw [here]
      exact List.forall_mem_singleton.mpr (inside known t here)

theorem kind_reached (taken : Nat) (goals : List Goal) (fact : Prop) :
    Meets (Reached s₀ taken goals fact) kind (fun _ => Reached s₀ taken goals fact)
      (Fails s₀ g) := by
  have peek_here := peek_reached s₀ g sound
  mvcgen [kind, peek_here]
  next h => exact h.imp And.left

theorem sees_reached (taken : Nat) (goals : List Goal) (fact : Prop) (kinds : List Token.Kind) :
    Meets (Reached s₀ taken goals fact) (sees kinds) (fun _ => Reached s₀ taken goals fact)
      (Fails s₀ g) := by
  have kind_here := kind_reached s₀ g sound
  mvcgen [sees, kind_here]

omit sound in
theorem await_reached (taken : Nat) (goals : List Goal) (fact : Prop) (new : List Goal) :
    Meets (Reached s₀ taken goals fact) (await new)
      (fun _ => Reached s₀ taken (new ++ goals) fact) (Fails s₀ g) := by
  mvcgen [await]
  next h _ =>
    refine ⟨h.barrier, h.tokens, ?_, h.few, h.inside, h.fact⟩
    rw [List.append_assoc, ← h.goals]

omit sound in
theorem defineHandles_reached (taken : Nat) (goals : List Goal) (fact : Prop)
    (handles : List String) :
    Meets (Reached s₀ taken goals fact) (modify ({ · with handles }) : Parse Unit)
      (fun _ => Reached s₀ taken goals fact) (Fails s₀ g) := by
  mvcgen
  next h _ => exact ⟨h.barrier, h.tokens, h.goals, h.few, h.inside, h.fact⟩

omit sound in
theorem throw_fails {Q : α → Parser → Prop} {e : Option Fault} (h : Fails s₀ g e) :
    Meets (fun _ => True) (throw e : Parse α) Q (Fails s₀ g) :=
  (throw_meets e).of_imp fun _ _ => h

omit sound in
theorem fail_fails {Q : α → Parser → Prop} {f : Fault} (ofText : f.isOfText = true) :
    Meets (fun _ => True) (fail f) Q (Fails s₀ g) := throw_fails s₀ g (fails_some ofText)

omit sound in
theorem checkHandle_reached (taken : Nat) (goals : List Goal) (fact : Prop)
    (handle : Option String) (start place : Position) :
    Meets (Reached s₀ taken goals fact) (checkHandle handle start place)
      (fun _ => Reached s₀ taken goals fact) (Fails s₀ g) := by
  mvcgen [checkHandle, fail_fails]

theorem properties_reached :
    Meets (Reached s₀ 0 [] True) properties
      (fun props => Reached s₀ props.count [] (props.Begun T)) (Fails s₀ g) := by
  have peek_here := peek_reached s₀ g sound
  have next_here := next_reached s₀ g sound
  have checkHandle_here := checkHandle_reached s₀ g
  mvcgen [properties, peek_here, next_here, checkHandle_here]
  all_goals clear peek_here next_here checkHandle_here
  all_goals first
    | refine Reached.imp ‹_› fun _ => ?_
      grind [Properties.Begun, Token.Kind.isProperty]
    | grind

end Readers

/-- What working on a goal achieves. -/
structure Works (T : List VersionedToken) (s₀ : Parser) (g : Goal) (found : List Event)
    (s : Parser) : Prop where
  sound : Sound T s
  barrier : s.barrier = s₀.barrier
  stands : ∀ e ∈ found, e.Stands T
  done : ∃ goals, s.goals = goals ++ s₀.goals ∧ (∀ g' ∈ goals, g'.Placed T) ∧
    g.form.Yields found (goals.map Goal.form) ∧ work s.tokens goals < work s₀.tokens [g]

theorem Reached.works {g : Goal} {found : List Event} {s : Parser}
    (h : Reached s₀ taken goals fact s) (sound : Sound T s₀)
    (yields : g.form.Yields found (goals.map Goal.form))
    (less : work (s₀.tokens.drop taken) goals < work s₀.tokens [g])
    (known : fact → (∀ e ∈ found, e.Stands T) ∧ ∀ g' ∈ goals, g'.Placed T) :
    Works T s₀ g found s :=
  ⟨h.sound sound, h.barrier, (known h.fact).1, goals, h.goals, (known h.fact).2, yields,
    by rwa [h.tokens]⟩

/-- A token that is taken pays for the goals that it leads to. -/
theorem Reached.works_taking {g : Goal} {found : List Event} {s : Parser}
    (h : Reached s₀ (taken + 1) goals fact s) (sound : Sound T s₀)
    (yields : g.form.Yields found (goals.map Goal.form))
    (light : (goals.map Goal.weight).sum ≤ 7)
    (known : fact → (∀ e ∈ found, e.Stands T) ∧ ∀ g' ∈ goals, g'.Placed T) :
    Works T s₀ g found s :=
  h.works sound yields (work_drop_lt g (Nat.succ_pos taken) h.few light) known

theorem Reached.works_lighter {g : Goal} {found : List Event} {s : Parser}
    (h : Reached s₀ taken goals fact s) (sound : Sound T s₀)
    (yields : g.form.Yields found (goals.map Goal.form))
    (lighter : (goals.map Goal.weight).sum < g.weight) (other : ∀ p, g ≠ .mappingKey p)
    (known : fact → (∀ e ∈ found, e.Stands T) ∧ ∀ g' ∈ goals, g'.Placed T) :
    Works T s₀ g found s :=
  h.works sound yields (work_lighter_lt s₀.tokens taken lighter other) known

section Goals

variable (s₀) (sound : Sound T s₀)
include sound

theorem node_works (block indentless : Bool) :
    Meets (Reached s₀ 0 [] True) (node block indentless) (Works T s₀ (.node block indentless))
      (Fails s₀ (.node block indentless)) := by
  have next_here := next_reached s₀ (.node block indentless) sound
  have await_here := await_reached s₀ (.node block indentless)
  have fail_here {f : Fault} (ofText : f.isOfText = true) :=
    fail_fails (Q := Works T s₀ (.node block indentless)) s₀ (.node block indentless) ofText
  unfold node
  refine (peek_reached s₀ _ sound 0 [] True).bind fun t => ?_
  dsimp only
  split
  next name found =>
    mvcgen [next_here]
    · grind
    next h =>
      exact h.works_taking sound (.alias _ _) (by decide) fun known =>
        ⟨List.forall_mem_singleton.mpr ⟨t, known.2.2, .inl rfl⟩, List.forall_mem_nil _⟩
  next =>
    refine Meets.of_imp ?_ fun _ h => h.forget
    refine (properties_reached s₀ _ sound).bind fun props =>
      (peek_reached s₀ _ sound _ [] _).bind fun t => ?_
    let start := (props.span.map (·.1)).getD t.token.start
    have begun (known : props.Begun T ∧ s₀.tokens[props.count]? = some t ∧ t ∈ T) :
        Marks T start := known.1.marks known.2.2
    have scalar {value : String} {style : ScalarStyle} (kind : t.token.kind = .scalar value style)
        (known : props.Begun T ∧ s₀.tokens[props.count]? = some t ∧ t ∈ T) :
        Event.Stands T (.scalar value style props.anchor start t.token.stop) :=
      known.1.stands_scalar known.2.2 kind
    mvcgen [next_here, await_here, fail_here]
    all_goals clear next_here await_here fail_here
    all_goals first
      | exact fun _ _ => rfl
      | exact Reached.works_taking ‹_› sound (by constructor) (by simp [Goal.weight])
          (by grind [Event.Stands, Goal.Placed])
      | exact Reached.works_lighter ‹_› sound (by constructor) (by simp [Goal.weight]) (by simp)
          (by grind [Event.Stands, Event.stands_empty, Goal.Placed])
      | grind

/-- Each goal but that of a document leads to lighter ones, or a token is taken. -/
theorem inner_works (g : Goal) (inner : g.form ≠ .documents) (placed : g.Placed T) :
    Meets (Reached s₀ 0 [] True) (step g) (Works T s₀ g) (Fails s₀ g) := by
  have peek_here := peek_reached s₀ g sound
  have next_here := next_reached s₀ g sound
  have sees_here := sees_reached s₀ g sound
  have await_here := await_reached s₀ g
  have fail_here {α : Type} {Q : α → Parser → Prop} {f : Fault} (ofText : f.isOfText = true) :=
    fail_fails (Q := Q) s₀ g ofText
  cases g
  case document => exact absurd rfl inner
  case node => exact node_works s₀ sound _ _
  all_goals
    mvcgen [step, content, documentEnd, sequenceEntry, indentlessEntry, mappingKey,
      mappingValue, flowEntry, pairKey, pairValue, pairEnd, flowKey, flowValue, flowEmptyValue,
      emptyScalar, start, fail_here, peek_here, next_here, sees_here, await_here]
    all_goals clear peek_here next_here sees_here await_here fail_here
    -- A token that was taken pays for what is awaited, or what is awaited weighs less than the goal.
    all_goals try first
      | exact fun _ _ => rfl
      | exact Reached.forget ‹_›
      | exact Reached.works_taking ‹_› sound (by repeat constructor) (by grind [Goal.weight])
          (by grind [Event.Stands, Event.stands_empty, Marks, Goal.Placed])
      | exact Reached.works_lighter ‹_› sound (by repeat constructor) (by grind [Goal.weight])
          (by grind) (by grind [Event.Stands, Event.stands_empty, Marks, Goal.Placed])
  -- A key and a value that are missing lead to each other, and only the next token says which is
  -- less to do.
  case' mappingKey.post.success.h_3.isTrue.post.success =>
    next value _ _ _ _ h =>
      exact h.works sound (.empty _ .key) (work_mappingValue_lt _ h.fact.2.1 (by grind))
        (by grind [Event.Stands, Event.stands_empty, Marks, Goal.Placed])
  case' mappingValue.post.success.isFalse.post.success =>
    next other _ _ _ _ h =>
      exact h.works sound (.empty _ .value) (work_mappingKey_lt _ h.fact.2.1 (by grind))
        (by grind [Event.Stands, Event.stands_empty, Marks, Goal.Placed])
  all_goals grind

theorem skipEnds_reached (g : Goal) (fuel : Nat) :
    Meets (fun s => ∃ taken, Reached s₀ taken [] True s) (skipEnds fuel)
      (fun _ s => ∃ taken, Reached s₀ taken [] True s) (Fails s₀ g) := by
  have peek_here := peek_reached s₀ g sound
  have next_here := next_reached s₀ g sound
  induction fuel with
  | zero => mvcgen [skipEnds]
  | succ fuel ih =>
    refine Meets.of_exists (fun taken => ?_) fun _ h => h
    mvcgen [skipEnds, kind, peek_here, next_here, ih]
    case inside => grind
    next h => exact ⟨taken + 1, h.forget⟩
    next h _ => exact ⟨taken, h.forget⟩

theorem directives_reached (g : Goal) (fuel : Nat) (versioned : Bool) (handles : List String) :
    Meets (fun s => ∃ taken, Reached s₀ taken [] True s) (directives fuel versioned handles)
      (fun _ s => ∃ taken, Reached s₀ taken [] True s) (Fails s₀ g) := by
  have fail_here {α : Type} {Q : α → Parser → Prop} {f : Fault} (ofText : f.isOfText = true) :=
    fail_fails (Q := Q) s₀ g ofText
  induction fuel generalizing versioned handles with
  | zero => mvcgen [directives]
  | succ fuel ih =>
    refine Meets.of_exists (fun taken => ?_) fun _ h => h
    rw [directives]
    refine (peek_reached s₀ g sound taken [] True).bind fun t => ?_
    dsimp only
    split
    next d found =>
      refine (next_reached s₀ g sound taken [] _ fun here => by grind).bind fun _ => ?_
      have further : ∀ s, Reached s₀ (taken + 1) [] (True ∧ s₀.tokens[taken]? = some t ∧ t ∈ T) s →
          ∃ taken, Reached s₀ taken [] True s := fun s h => ⟨taken + 1, h.forget⟩
      refine Meets.of_imp ?_ further
      cases d
      all_goals mvcgen [fail_here, ih]
    next =>
      mvcgen
      next h => exact ⟨taken, h.forget⟩

theorem markedDocument_works (bare : Bool) :
    Meets (fun s => ∃ taken, Reached s₀ taken [] True s) markedDocument
      (Works T s₀ (.document bare)) (Fails s₀ (.document bare)) := by
  have get_here (P : Parser → Prop) :
      Meets P (get : Parse Parser) (fun _ => P) (Fails s₀ (.document bare)) := by
    mvcgen
  rw [markedDocument]
  refine (get_here _).bind fun _ => (skipEnds_reached s₀ sound _ _).bind fun _ => ?_
  refine Meets.of_exists (fun taken => ?_) fun _ h => h
  refine (kind_reached s₀ _ sound taken [] True).bind fun k => ?_
  dsimp only
  split
  · have throw_here {Q : PUnit → Parser → Prop} :=
      throw_fails (Q := Q) s₀ (.document bare) (fails_none rfl)
    mvcgen [throw_here, -Spec.throw_MonadExcept]
  have opened : ∀ s, Reached s₀ taken [] True s → ∃ taken, Reached s₀ taken [] True s :=
    fun s h => ⟨taken, h⟩
  refine Meets.of_imp ?_ opened
  refine (directives_reached s₀ sound _ _ _ _).bind fun handles => ?_
  refine Meets.of_exists (fun taken => ?_) fun _ h => h
  refine (peek_reached s₀ _ sound taken [] True).bind fun t => ?_
  split
  · have fail_here {Q : PUnit → Parser → Prop} {f : Fault} (ofText : f.isOfText = true) :=
      fail_fails (Q := Q) s₀ (.document bare) ofText
    mvcgen [fail_here]
  refine (next_reached s₀ _ sound taken [] _ (by grind)).bind fun _ =>
    (defineHandles_reached s₀ _ _ _ _ _).bind fun _ => (await_reached s₀ _ _ _ _ _).bind fun _ => ?_
  mvcgen
  next h =>
    exact h.works_taking sound (.document _) (by simp [Goal.weight])
      (by grind [Event.Stands, Marks, Goal.Placed])

theorem document_works (bare : Bool) :
    Meets (Reached s₀ 0 [] True) (document bare) (Works T s₀ (.document bare))
      (Fails s₀ (.document bare)) := by
  unfold document
  refine (peek_reached s₀ _ sound 0 [] True).bind fun t => .ite (fun begins => ?_)
    fun _ => (markedDocument_works s₀ sound bare).of_imp fun _ h => ⟨0, h.forget⟩
  refine (defineHandles_reached s₀ _ 0 [] _ _).bind fun _ => (await_reached s₀ _ 0 [] _ _).bind
    fun _ => ?_
  mvcgen
  next h =>
    exact h.works_lighter sound (.document _) (by grind [Goal.weight]) nofun
      (by grind [Event.Stands, Marks, Goal.Placed])

/-- A step finds events by a production, which stand at places of tokens, and there is less to do.
-/
theorem step_works (g : Goal) (placed : g.Placed T) :
    Meets (fun s => s = s₀) (step g) (Works T s₀ g) (Fails s₀ g) := by
  have opening (s : Parser) (h : s = s₀) : Reached s₀ 0 [] True s := by
    subst h
    exact ⟨rfl, rfl, rfl, Nat.zero_le _, nofun, trivial⟩
  refine Meets.of_imp ?_ opening
  cases g with
  | document bare => exact document_works s₀ sound bare
  | _ => exact inner_works s₀ sound _ nofun placed

end Goals

end Parse

open Form (WriteAll Nested)

/-- What is known of the events that are read for the forms, with the fault that stops them, if
there is one. They write what the forms stand for, or a beginning of it if a fault stops them. -/
structure Event.Reads (T : List VersionedToken) (barrier : Option Fault) (most : Nat)
    (forms : List Form) (events : List Event) (fault : Option Fault) : Prop where
  stands : ∀ e ∈ events, e.Stands T
  short : events.length ≤ most
  explained : ∀ f ∈ fault, f ∈ barrier ∨ f.isOfText = true
  writes : ∃ more, WriteAll forms (events ++ more) ∧ (fault = none → more = [])

theorem Event.reads_nil {T : List VersionedToken} {barrier : Option Fault} {most : Nat}
    {forms : List Form} {fault : Option Fault}
    (explained : ∀ f ∈ fault, f ∈ barrier ∨ f.isOfText = true)
    (written : fault = none → WriteAll forms []) :
    Event.Reads T barrier most forms [] fault := by
  refine ⟨List.forall_mem_nil _, Nat.zero_le _, explained, ?_⟩
  cases fault with
  | none => exact ⟨[], written rfl, fun _ => rfl⟩
  | some f =>
    obtain ⟨es, hes⟩ := Form.exists_writeAll forms
    exact ⟨es, hes, nofun⟩

/-- With enough steps the goals are worked off. -/
theorem Parser.run_reads {T : List VersionedToken} (fuel : Nat) {s : Parser}
    (enough : work s.tokens s.goals < fuel) (sound : Parse.Sound T s)
    (placed : ∀ g ∈ s.goals, g.Placed T) (nested : Nested (s.goals.map Goal.form)) :
    Event.Reads T s.barrier fuel (s.goals.map Goal.form) (Parser.run fuel s).1
      (Parser.run fuel s).2 := by
  induction fuel generalizing s with
  | zero => exact absurd enough (Nat.not_lt_zero _)
  | succ fuel ih =>
    rw [Parser.run]
    split
    next none_left =>
      rw [none_left]
      exact Event.reads_nil (by simp) fun _ => .nil
    next g goals found_goals =>
      rw [found_goals] at nested placed ⊢
      obtain ⟨top, others⟩ := List.forall_mem_cons.mp placed
      have working : Parse.Sound T { s with goals } := ⟨sound.among, sound.ends⟩
      have step := Parse.step_works { s with goals } working g top
      split
      next fault failed =>
        have fails := step.error rfl failed
        refine Event.reads_nil fails.explained fun ended => ?_
        -- No document is found since the text ends, and nothing can come behind it.
        have form := fails.ended ended
        have last : goals.map Goal.form = [] := by
          rw [List.map_cons, form] at nested
          exact nested.last_documents
        rw [List.map_cons, form, last]
        exact WriteAll.singleton_iff.mpr ⟨[], rfl⟩
      next found s₁ stepped =>
        have works := step.ok rfl stepped
        obtain ⟨new, goals_eq, hnew, yields, less⟩ := works.done
        have goals_eq : s₁.goals = new ++ goals := goals_eq
        have less : work s₁.tokens new < work s.tokens [g] := less
        have fewer : work s₁.tokens s₁.goals < fuel := by
          have most := work_append_le s₁.tokens new goals
          rw [found_goals, work_cons] at enough
          rw [goals_eq]
          omega
        have nested₁ : Nested (s₁.goals.map Goal.form) := by
          rw [goals_eq, List.map_append]
          exact yields.nested nested
        have placed₁ : ∀ g ∈ s₁.goals, g.Placed T :=
          goals_eq ▸ List.forall_mem_append.mpr ⟨hnew, others⟩
        have later := ih fewer works.sound placed₁ nested₁
        rw [works.barrier, goals_eq, List.map_append] at later
        refine ⟨List.forall_mem_append.mpr ⟨works.stands, later.stands⟩, ?_, later.explained, ?_⟩
        · have := yields.length_le
          have := later.short
          rw [List.length_append]
          omega
        · obtain ⟨more, written, complete⟩ := later.writes
          refine ⟨more, ?_, complete⟩
          obtain ⟨first, behind, split, hfirst, hbehind⟩ := written.split
          rw [List.append_assoc, split, ← List.append_assoc]
          exact .cons (yields.writes hfirst) hbehind

namespace Event

theorem reads_ofText (text : List Char) :
    Event.Reads (Token.ofText text).1 (Token.ofText text).2 (8 * ((Token.ofText text).1.length + 2))
      [.documents] (ofText text).events (ofText text).fault := by
  have ends := (Token.reads_ofText text).ends
  unfold ofText
  generalize Token.ofText text = read at ends ⊢
  obtain ⟨tokens, barrier⟩ := read
  refine Parser.run_reads (s := ⟨tokens, barrier, [.document true], defaultHandles⟩) _ ?_
    ⟨fun _ => id, ends⟩ (by simp [Goal.Placed]) (by simp [Nested])
  simp only [work, Goal.weightBefore, Goal.weight, if_true, List.map_nil, List.sum_nil]
  omega

/-- Every event of a text stands at places of its tokens. -/
theorem stands_ofText (text : List Char) :
    ∀ e ∈ (ofText text).events, e.Stands (Token.ofText text).1 := (reads_ofText text).stands

/-- Every event of a text begins behind some of its characters. -/
theorem begins_ofText (text : List Char) :
    ∀ e ∈ (ofText text).events, e.Begins (Cursor.Invariant.ofText text).IsPlace := by
  refine fun e he => (stands_ofText text e he).begins ?_
  rintro p ⟨t, mem, rfl | rfl⟩
  · exact ((Token.reads_ofText text).sound t mem).start
  · exact ((Token.reads_ofText text).sound t mem).stop

/-- The number of events is bounded by a multiple of the length of the text. -/
theorem length_ofText_le (text : List Char) :
    (ofText text).events.length ≤ 32 * text.length + 80 := by
  have tokens := (Token.reads_ofText text).short
  have events := (reads_ofText text).short
  omega

theorem explained_ofText (text : List Char) :
    ∀ f ∈ (ofText text).fault, f.Explained text := by
  intro f stops
  rcases (reads_ofText text).explained f stops with barrier | ofText
  · exact (Token.reads_ofText text).explained f barrier
  · exact Fault.explained_of_isOfText ofText

/-- The events of a text are those of some documents, or a beginning of them if a fault stops them.
-/
theorem ofText_writes (text : List Char) :
    ∃ documents more, (ofText text).events ++ more = Tree.events documents ∧
      ((ofText text).fault = none → more = []) := by
  obtain ⟨more, written, complete⟩ := (reads_ofText text).writes
  obtain ⟨documents, eq⟩ := WriteAll.singleton_iff.mp written
  exact ⟨documents, more, eq, complete⟩

end Event

end FlowLint.Yaml
