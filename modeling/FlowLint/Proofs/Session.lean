import FlowLint.Proofs.Settings
import FlowLint.Service

/-! Sessions: requests one after the other. Only an accepted update changes what the service keeps
(`update_eq_ok_iff`, `respond_of_quiet`), so after any requests the settings that are shown are
those that reviews use, and each of them is the one that was given last (`settings_after`). -/

namespace FlowLint

open Json (Checked given?)

variable {reader : PatternReader}

/-- What the settings of a review must be: the bounds, the patterns that belong to their texts, and
that they are accepted when they are read. -/
structure Settings.Valid (reader : PatternReader) (s : Settings) : Prop where
  limits : 1 ≤ s.maxTimeoutMinutes.value ∧ 1 ≤ s.maxRetentionDays.value ∧
    1 ≤ s.maxScriptLines.value ∧ ∀ l ∈ s.maxWorkers, 1 ≤ l.value
  patterns : reader s.denylist.text = .ok s.denylist.occurs ∧
    reader s.justification.text = .ok s.justification.occurs
  accepted : Settings.ofJson reader s.toJson = .ok s

theorem Settings.valid {s : Settings} (known : s.IsReadBy reader) : s.Valid reader where
  limits := ⟨s.maxTimeoutMinutes.pos, s.maxRetentionDays.pos, s.maxScriptLines.pos,
    fun l _ => l.pos⟩
  patterns := ⟨known .denylist, known .justification⟩
  accepted := Settings.ofJson_toJson known

namespace Service

/-- A request with the answer to it, if there was one. -/
structure Exchange where
  request : Request
  answer : Answer

/-- The state after requests, also after those that have no response. -/
def after (reader : PatternReader) (s : State) (requests : List Request) : State :=
  requests.foldl (fun s r => (respond reader s r).1) s

def exchanges (reader : PatternReader) (s : State) : List Request → List Exchange
  | [] => []
  | r :: rest => ⟨r, (respond reader s r).2⟩ :: exchanges reader (respond reader s r).1 rest

theorem after_cons (s : State) (r : Request) (rest : List Request) :
    after reader s (r :: rest) = after reader (respond reader s r).1 rest := List.foldl_cons ..

theorem exchanges_cons (s : State) (r : Request) (rest : List Request) :
    exchanges reader s (r :: rest) =
      ⟨r, (respond reader s r).2⟩ :: exchanges reader (respond reader s r).1 rest := rfl

/-- The request sends an update of the settings. -/
def Request.IsUpdate (r : Request) : Prop :=
  Resource.ofPath? r.path = some .settings ∧ r.method = "PUT"

instance (r : Request) : Decidable r.IsUpdate := inferInstanceAs (Decidable (_ ∧ _))

/-- The members of an update of the settings that was answered with them. -/
def Exchange.update? (e : Exchange) : Option (List (String × Json)) :=
  if e.request.IsUpdate then
    match e.request.body, e.answer with
    | some (.object members), .ok ⟨200, _⟩ => some members
    | _, _ => none
  else none

/-- The last value that an accepted update gave for a setting. -/
def lastGiven? (f : Setting) (history : List Exchange) : Option Json :=
  (history.filterMap fun e => e.update?.bind (given? f.name)).getLast?

theorem lastGiven?_cons (f : Setting) (e : Exchange) (history : List Exchange) :
    lastGiven? f (e :: history) =
      (lastGiven? f history).or (e.update?.bind (given? f.name)) := by
  unfold lastGiven?
  rw [List.filterMap_cons]
  cases e.update?.bind (given? f.name) with
  | none => simp
  | some v => simp [List.getLast?_cons, Option.or_some]

/-! ### One request -/

theorem bind_eq_ok_iff {ε α β : Type} {x : Except ε α} {f : α → Except ε β} {b : β} :
    (x >>= f) = .ok b ↔ ∃ a, x = .ok a ∧ f a = .ok b := by
  cases x <;> simp [bind, Except.bind]

/-- A response, if there is one, has the status 422. -/
def Answer.Refuses (answer : Answer) : Prop := ∀ response ∈ answer.toOption, response.status = 422

theorem orRefuse_eq_ok_iff {α : Type} {c : Checked α} {a : α}
    {refusal : List Json.Issue → Response} : orRefuse refusal c = .ok a ↔ c = .ok a :=
  Checked.toExcept_eq_ok_iff

theorem refuses_of_orRefuse {α : Type} {c : Checked α} {refusal : List Json.Issue → Response}
    (all : ∀ issues, (refusal issues).status = 422) {answer : Answer}
    (h : orRefuse refusal c = .error answer) : Answer.Refuses answer := by
  cases c with
  | ok a => cases h
  | issues i rest =>
    obtain rfl := Except.error.inj h
    rintro _ ⟨⟩
    exact all _
  | raised e =>
    obtain rfl := Except.error.inj h
    exact nofun

theorem readBody_eq_ok_iff {α : Type} {read : Json → Checked α} {body : Option Json} {a : α} :
    readBody read body = .ok a ↔ ∃ v, body = some v ∧ v ≠ .null ∧ read v = .ok a := by
  unfold readBody
  rw [orRefuse_eq_ok_iff, Checked.under_eq_ok_iff]
  split
  next => exact ⟨nofun, nofun⟩
  next => exact ⟨nofun, fun ⟨_, same, there, _⟩ => absurd (Option.some.inj same).symm there⟩
  next v there =>
    refine ⟨fun h => ⟨v, rfl, there, h⟩, ?_⟩
    rintro ⟨v', same, -, h⟩
    exact Option.some.inj same ▸ h

/-- An update is accepted if each setting that it gives can be read; it sets these, and the others
stay as they are. -/
theorem update_eq_ok_iff {e : Engine} (known : e.settings.IsReadBy reader) {body : Option Json}
    {next : Settings} :
    update reader e body = .ok next ↔
      ∃ members, body = some (.object members) ∧
        ∀ f : Setting, (given? f.name members).elim (e.settings.get f = next.get f)
          (f.read reader · = .ok (next.get f)) := by
  simp only [update, bind_eq_ok_iff, orRefuse_eq_ok_iff, readBody_eq_ok_iff,
    ← Update.exists_apply_iff known]
  constructor
  · rintro ⟨u, ⟨v, rfl, -, read⟩, applied⟩
    cases v with
    | object members => exact ⟨members, rfl, u, read, applied⟩
    | _ => cases read
  · rintro ⟨members, rfl, u, read, applied⟩
    exact ⟨u, ⟨_, rfl, nofun, read⟩, applied⟩

theorem respond_update {s : State} {r : Request} (h : r.IsUpdate) :
    respond reader s r = match update reader s.engine r.body with
      | .ok next => (⟨next, ⟨next, s.engine.rules⟩⟩, .ok ⟨200, next.toJson⟩)
      | .error answer => (s, answer) := by
  unfold respond
  rw [h.1, h.2]
  rfl

theorem respond_of_not_isUpdate {s : State} {r : Request} (h : ¬ r.IsUpdate) :
    (respond reader s r).1 = s := by
  unfold respond
  split
  case h_5 path method => exact absurd ⟨path, method⟩ h
  all_goals rfl

theorem refuses_of_update {e : Engine} {body : Option Json} {answer : Answer}
    (h : update reader e body = .error answer) : Answer.Refuses answer := by
  unfold update at h
  cases read : readBody Update.ofJson body with
  | ok u =>
    rw [read] at h
    exact refuses_of_orRefuse (fun _ => rfl) h
  | error refused =>
    rw [read] at h
    obtain rfl := Except.error.inj h
    exact refuses_of_orRefuse (fun _ => rfl) read

/-- What an exchange with an accepted update did. -/
theorem respond_of_update? {s : State} (known : s.engine.settings.IsReadBy reader) {r : Request}
    {members : List (String × Json)}
    (h : (⟨r, (respond reader s r).2⟩ : Exchange).update? = some members) :
    ∃ next : Settings, (∀ f : Setting, (given? f.name members).elim
        (s.engine.settings.get f = next.get f) (f.read reader · = .ok (next.get f))) ∧
      respond reader s r = (⟨next, ⟨next, s.engine.rules⟩⟩, .ok ⟨200, next.toJson⟩) := by
  unfold Exchange.update? at h
  split at h
  next isUpdate =>
    have answer : respond reader s r = _ := respond_update isUpdate
    split at h
    next _ _ members' shown body_eq answered =>
      obtain rfl := Option.some.inj h
      cases updated : update reader s.engine r.body with
      | ok next =>
        obtain ⟨members'', same, step⟩ := (update_eq_ok_iff known).mp updated
        obtain rfl := Json.object.inj (Option.some.inj (body_eq.symm.trans same))
        rw [updated] at answer
        exact ⟨next, step, answer⟩
      | error refused =>
        rw [updated] at answer
        have refused_eq : refused = .ok ⟨200, shown⟩ :=
          (congrArg Prod.snd answer).symm.trans answered
        have status : (200 : Nat) = 422 :=
          refuses_of_update updated ⟨200, shown⟩ (by rw [refused_eq]; rfl)
        exact absurd status (by decide)
    next => cases h
  next => cases h

/-- Any other exchange changes nothing. -/
theorem respond_of_quiet {s : State} (known : s.engine.settings.IsReadBy reader) {r : Request}
    (h : (⟨r, (respond reader s r).2⟩ : Exchange).update? = none) :
    (respond reader s r).1 = s := by
  by_cases isUpdate : r.IsUpdate
  · have answer : respond reader s r = _ := respond_update isUpdate
    cases updated : update reader s.engine r.body with
    | ok next =>
      rw [updated] at answer
      obtain ⟨members, body, -⟩ := (update_eq_ok_iff known).mp updated
      simp [Exchange.update?, isUpdate, answer, body] at h
    | error refusal => rw [answer, updated]
  · exact respond_of_not_isUpdate isUpdate

/-! ### Requests one after the other -/

/-- The settings that are shown are those that reviews use, and their patterns were read. -/
structure State.IsSettled (reader : PatternReader) (s : State) : Prop where
  shown : s.engine.settings = s.settings
  known : s.settings.IsReadBy reader

theorem State.IsSettled.known_engine {s : State} (h : s.IsSettled reader) :
    s.engine.settings.IsReadBy reader := h.shown ▸ h.known

theorem State.IsSettled.engine_eq {s : State} (h : s.IsSettled reader) :
    s.engine = ⟨s.settings, s.engine.rules⟩ := h.shown ▸ rfl

/-- A request keeps a state settled. -/
theorem State.IsSettled.respond {s : State} (h : s.IsSettled reader) (r : Request) :
    (respond reader s r).1.IsSettled reader ∧
      (respond reader s r).1.engine.rules = s.engine.rules := by
  cases updated : (⟨r, (Service.respond reader s r).2⟩ : Exchange).update? with
  | none =>
    rw [respond_of_quiet h.known_engine updated]
    exact ⟨h, rfl⟩
  | some members =>
    obtain ⟨next, step, answer⟩ := respond_of_update? h.known_engine updated
    rw [answer]
    exact ⟨⟨rfl, Settings.isReadBy_of_given h.known_engine step⟩, rfl⟩

theorem State.IsSettled.after {s : State} (h : s.IsSettled reader) (requests : List Request) :
    (after reader s requests).IsSettled reader ∧
      (after reader s requests).engine.rules = s.engine.rules := by
  induction requests generalizing s with
  | nil => exact ⟨h, rfl⟩
  | cons r rest ih =>
    obtain ⟨next, rules⟩ := h.respond r
    rw [after_cons, ← rules]
    exact ih next

theorem State.isSettled_start {start : Settings} (known : start.IsReadBy reader) :
    (State.start start).IsSettled reader := ⟨rfl, known⟩

/-- Each setting is the one that was given last. -/
theorem get_settings_after {s : State} (h : s.IsSettled reader) (requests : List Request)
    (f : Setting) :
    (lastGiven? f (exchanges reader s requests)).elim
      ((after reader s requests).settings.get f = s.settings.get f)
      (f.read reader · = .ok ((after reader s requests).settings.get f)) := by
  induction requests generalizing s with
  | nil => rfl
  | cons r rest ih =>
    rw [after_cons, exchanges_cons, lastGiven?_cons]
    cases updated : (⟨r, (respond reader s r).2⟩ : Exchange).update? with
    | none =>
      rw [respond_of_quiet h.known_engine updated]
      simpa using ih h
    | some members =>
      obtain ⟨next, step, answer⟩ := respond_of_update? h.known_engine updated
      have later := ih (h.respond r).1
      rw [answer] at later ⊢
      -- A later update that gives the setting hides what this one says of it.
      cases given : lastGiven? f (exchanges reader ⟨next, ⟨next, s.engine.rules⟩⟩ rest) with
      | some v =>
        rw [given] at later
        exact later
      | none =>
        rw [given] at later
        have kept : (after reader ⟨next, ⟨next, s.engine.rules⟩⟩ rest).settings.get f =
          next.get f := later
        have now := step f
        rw [h.shown] at now
        rw [kept]
        cases here : given? f.name members with
        | none =>
          rw [here] at now
          simpa [here] using now.symm
        | some v =>
          rw [here] at now
          simpa [here] using now

theorem run_cons_eq_ok_iff {s last : State} {r : Request} {rest : List Request}
    {responses : List Response} :
    s.run reader (r :: rest) = .ok (last, responses) ↔
      ∃ response others, responses = response :: others ∧
        (respond reader s r).2 = .ok response ∧
        (respond reader s r).1.run reader rest = .ok (last, others) := by
  simp only [State.run, bind_eq_ok_iff]
  constructor
  · rintro ⟨response, answered, ⟨last', others⟩, later, same⟩
    obtain ⟨rfl, rfl⟩ := Prod.mk.inj (Except.ok.inj same)
    exact ⟨response, others, rfl, answered, later⟩
  · rintro ⟨response, others, rfl, answered, later⟩
    exact ⟨response, answered, (last, others), later, rfl⟩

/-- A run in which every request is answered ends in the state after them. -/
theorem run_eq_ok_iff {s last : State} {requests : List Request} {responses : List Response} :
    s.run reader requests = .ok (last, responses) ↔
      last = after reader s requests ∧
        (exchanges reader s requests).map (·.answer) = responses.map .ok := by
  induction requests generalizing s responses with
  | nil => cases responses <;> simp [State.run, after, exchanges, eq_comm]
  | cons r rest ih =>
    simp only [run_cons_eq_ok_iff, ih]
    cases responses with
    | nil => simp [exchanges]
    | cons response others => simp [exchanges, after, and_assoc, and_left_comm]

/-- After any requests from the start the settings that are shown are those that reviews use, they
are valid, and each of them is the one that the last accepted update to give it gave, or the one at
the start. Only an accepted update changes anything. A run in which all requests have a response
ends in the same state. -/
theorem settings_after (reader : PatternReader) (start : Settings) (known : start.IsReadBy reader)
    (requests : List Request) :
    let s := after reader (.start start) requests
    s.engine = ⟨s.settings, Catalog.rules⟩ ∧
    s.settings.Valid reader ∧
    (∀ f : Setting, (lastGiven? f (exchanges reader (.start start) requests)).elim
      (s.settings.get f = start.get f) (f.read reader · = .ok (s.settings.get f))) ∧
    (∀ r : Request, (respond reader s r).1 ≠ s →
      r.IsUpdate ∧ ∃ body, (respond reader s r).2 = .ok ⟨200, body⟩) ∧
    ∀ last responses, run reader start requests = .ok (last, responses) ↔
      last = s ∧ (exchanges reader (.start start) requests).map (·.answer) =
        responses.map .ok := by
  intro s
  obtain ⟨settled, rules⟩ := (State.isSettled_start known).after requests
  have engine : s.engine = ⟨s.settings, Catalog.rules⟩ :=
    settled.engine_eq.trans (congrArg (Engine.mk s.settings) rules)
  refine ⟨engine, Settings.valid settled.known,
    get_settings_after (State.isSettled_start known) requests, fun r changed => ?_,
    fun _ _ => run_eq_ok_iff⟩
  cases updated : (⟨r, (respond reader s r).2⟩ : Exchange).update? with
  | none => exact absurd (respond_of_quiet settled.known_engine updated) changed
  | some members =>
    obtain ⟨next, -, answer⟩ := respond_of_update? settled.known_engine updated
    refine ⟨?_, next.toJson, by rw [answer]⟩
    by_cases isUpdate : r.IsUpdate
    · exact isUpdate
    · exact absurd (respond_of_not_isUpdate isUpdate) changed

/-- An update that cannot be read leaves what an earlier one set, here by a numeral in a text. -/
theorem settings_after_numeral :
    let put (minutes : Json) : Request := {
      method := "PUT", path := "/api/settings/lint",
      body := some (.object [("max_timeout_minutes", minutes)]) }
    let requests := [put (.string "30"), put (.ofNat 0), { method := "GET", path := "/nothing" }]
    let s := after .standard (.start default) requests
    s.settings.maxTimeoutMinutes.value = 30 ∧
      (∃ v, lastGiven? .maxTimeoutMinutes (exchanges .standard (.start default) requests) = some v ∧
        Setting.maxTimeoutMinutes.read .standard v = .ok (s.settings.get .maxTimeoutMinutes)) ∧
      ∃ body, (respond .standard s (put (.ofNat 5))).2 = .ok ⟨200, body⟩ := by
  intro put requests s
  obtain ⟨-, -, given, changing, -⟩ :=
    settings_after .standard default Settings.isReadBy_default requests
  let history := exchanges .standard (.start default) requests
  have some_given : (lastGiven? .maxTimeoutMinutes history).isSome := by decide +kernel
  obtain ⟨v, last⟩ := Option.isSome_iff_exists.mp some_given
  have read := given .maxTimeoutMinutes
  rw [last] at read
  have changed : (respond .standard s (put (.ofNat 5))).1.settings.maxTimeoutMinutes.value ≠
      s.settings.maxTimeoutMinutes.value := by decide +kernel
  have changes : (respond .standard s (put (.ofNat 5))).1 ≠ s :=
    fun same => changed (congrArg (·.settings.maxTimeoutMinutes.value) same)
  exact ⟨by decide +kernel, ⟨v, last, read⟩, (changing _ changes).2⟩

end Service

end FlowLint
