import FlowLint.Proofs.Session

/-! Overrides and updates. An object without nulls that is put over the settings for one request is
accepted if it is accepted as an update, and then the review is the one that follows the update. -/

namespace FlowLint

open Json (Checked given?)

variable {reader : PatternReader}

/-- An object without nulls is put over settings as it updates them. -/
theorem Settings.override_eq_ok_iff_update {s s' : Settings} (known : s.IsReadBy reader)
    {members : List (String × Json)} (distinct : (members.map (·.1)).Nodup)
    (there : ∀ m ∈ members, m.2 ≠ .null) :
    s.override reader members = .ok s' ↔
      ∀ f : Setting, (given? f.name members).elim (s.get f = s'.get f)
        (f.read reader · = .ok (s'.get f)) := by
  rw [override_eq_ok_iff known]
  refine forall_congr' fun f => ?_
  have all_given : members.reverse.lookup f.name = given? f.name members := by
    rw [Json.lookup_reverse distinct]
    unfold given?
    split
    next null =>
      obtain ⟨before, behind, rfl, -⟩ := List.lookup_eq_some_iff.mp null
      exact absurd rfl (there (f.name, .null) (by simp))
    next => rfl
  rw [all_given]

namespace Service

/-- A request for the review of a text, with an object that is put over the settings. -/
def lint (content : String) (config : Option Json) : Request where
  method := "POST"
  path := Resource.lint.path
  body := some (.object (("content", .string content) ::
    (config.map fun v => ("config", v)).toList))

/-- A request for an update of the settings. -/
def put (body : Json) : Request where
  method := "PUT"
  path := Resource.settings.path
  body := some body

/-- A request for the settings. -/
def get : Request where
  method := "GET"
  path := Resource.settings.path

/-- The answer has the status 200. -/
def Accepted (answer : Answer) : Prop := ∃ body, answer = .ok ⟨200, body⟩

instance : (answer : Answer) → Decidable (Accepted answer)
  | .ok ⟨status, body⟩ =>
    if h : status = 200 then .isTrue ⟨body, by rw [h]⟩
    else .isFalse fun ⟨_, same⟩ => h (congrArg Response.status (Except.ok.inj same))
  | .error _ => .isFalse nofun

theorem Resource.ofPath?_path (r : Resource) : Resource.ofPath? r.path = some r := by
  cases r <;> decide +kernel

/-- What refuses does not accept. -/
theorem Answer.Refuses.not_accepted {answer : Answer} (h : Answer.Refuses answer) :
    ¬ Accepted answer := by
  rintro ⟨body, rfl⟩
  have status : (200 : Nat) = 422 := h ⟨200, body⟩ rfl
  exact absurd status (by decide)

/-! ### Requests for a review -/

theorem respond_of_post {s : State} {r : Request} (path : Resource.ofPath? r.path = some .lint)
    (method : r.method = "POST") : respond reader s r = (s, review reader s.engine r.body) := by
  unfold respond
  rw [path, method]
  rfl

theorem ReviewRequest.engine_overrides {e : Engine} (known : e.settings.IsReadBy reader)
    (content : String) (members : List (String × Json)) :
    ReviewRequest.engine reader ⟨content, some members⟩ e =
      (orRefuse refuseSettings (e.settings.override reader members)).map (⟨·, e.rules⟩) := by
  cases members with
  | nil =>
    have same : e.settings.override reader [] = .ok e.settings :=
      (Settings.override_eq_ok_iff known).mpr fun _ => rfl
    rw [same]
    rfl
  | cons m rest => rfl

theorem ReviewRequest.refuses_of_engine {r : ReviewRequest} {e : Engine} {answer : Answer}
    (h : r.engine reader e = .error answer) : Answer.Refuses answer := by
  unfold ReviewRequest.engine at h
  split at h
  · cases h
  · cases h
  next changes _ _ =>
    cases read : orRefuse refuseSettings (e.settings.override reader changes) with
    | ok next =>
      rw [read] at h
      cases h
    | error refused =>
      rw [read] at h
      obtain rfl := Except.error.inj h
      exact refuses_of_orRefuse (fun _ => rfl) read

theorem respond_lint (s : State) (content : String) (overrides : Option (List (String × Json))) :
    respond reader s (lint content (overrides.map .object)) =
      (s, if Text.allBlank content then .ok (refuse 400 (.string "content is required"))
        else match ReviewRequest.engine reader ⟨content, overrides⟩ s.engine with
          | .error answer => answer
          | .ok engine => reviewed engine content) := by
  have read : readBody ReviewRequest.ofJson (lint content (overrides.map .object)).body =
      .ok ⟨content, overrides⟩ := by
    refine readBody_eq_ok_iff.mpr ⟨_, rfl, nofun, ?_⟩
    change ReviewRequest.ofMembers _ = _
    refine Checked.seq_of_eq (Checked.map_of_eq (a := content) ?_) (a := overrides) ?_
    · rw [Json.Shape.member_eq_ok_iff, Json.lookup_cons, if_pos rfl]
      rfl
    · rw [Json.Shape.member_eq_ok_iff, Json.lookup_cons, if_neg (by decide)]
      cases overrides with
      | none => rfl
      | some members =>
        simp only [Option.map_some, Option.toList_some, Json.lookup_cons, if_true]
        rfl
  have path : Resource.ofPath? (lint content (overrides.map .object)).path = some .lint :=
    Resource.ofPath?_path .lint
  have answer : respond reader s _ = _ := respond_of_post path rfl
  rw [review, read] at answer
  exact answer

/-- Whether there is a review does not depend on the settings. -/
theorem accepted_reviewed_iff {e : Engine} {content : String} :
    Accepted (reviewed e content) ↔ ∃ doc, Tree.load content = .ok doc := by
  unfold reviewed Review.ofText
  cases Tree.load content with
  | ok doc => exact ⟨fun _ => ⟨doc, rfl⟩, fun _ => ⟨_, rfl⟩⟩
  | error error =>
    refine ⟨fun ⟨body, answered⟩ => ?_, nofun⟩
    cases raised : error.raised? with
    | none =>
      simp only [Except.map, raised] at answered
      cases Except.ok.inj answered
    | some e =>
      simp only [Except.map, raised] at answered
      cases answered

theorem accepted_lint_iff (s : State) (content : String)
    (overrides : Option (List (String × Json))) :
    Accepted (respond reader s (lint content (overrides.map .object))).2 ↔
      Text.allBlank content = false ∧
        (∃ e, ReviewRequest.engine reader ⟨content, overrides⟩ s.engine = .ok e) ∧
        ∃ doc, Tree.load content = .ok doc := by
  rw [respond_lint]
  cases Text.allBlank content with
  | true =>
    refine ⟨fun ⟨_, answered⟩ => ?_, nofun⟩
    cases Except.ok.inj answered
  | false =>
    cases read : ReviewRequest.engine reader ⟨content, overrides⟩ s.engine with
    | error answer =>
      refine ⟨fun accepted => ?_, fun ⟨_, ⟨_, accepted⟩, _⟩ => nomatch accepted⟩
      exact absurd accepted (ReviewRequest.refuses_of_engine read).not_accepted
    | ok e => simp [accepted_reviewed_iff]

/-! ### Overrides and updates -/

theorem isUpdate_put (body : Json) : (put body).IsUpdate :=
  ⟨Resource.ofPath?_path .settings, rfl⟩

theorem respond_put {s : State} {body : Json} {next : Settings}
    (h : update reader s.engine (some body) = .ok next) :
    respond reader s (put body) = (⟨next, ⟨next, s.engine.rules⟩⟩, .ok ⟨200, next.toJson⟩) := by
  have answer : respond reader s (put body) = _ := respond_update (isUpdate_put body)
  rwa [show update reader s.engine (put body).body = .ok next from h] at answer

theorem accepted_put_iff {s : State} {body : Json} :
    Accepted (respond reader s (put body)).2 ↔
      ∃ next, update reader s.engine (some body) = .ok next := by
  cases updated : update reader s.engine (some body) with
  | ok next =>
    rw [respond_put updated]
    exact ⟨fun _ => ⟨next, rfl⟩, fun _ => ⟨_, rfl⟩⟩
  | error refused =>
    have answer : respond reader s (put body) = _ := respond_update (isUpdate_put body)
    rw [show update reader s.engine (put body).body = .error refused from updated] at answer
    rw [answer]
    exact ⟨fun accepted => absurd accepted (refuses_of_update updated).not_accepted, nofun⟩

section

variable {e e' : Engine} {s : State} {content : String} {members : List (String × Json)}

theorem engine_overrides_eq_ok_iff (known : e.settings.IsReadBy reader)
    (distinct : (members.map (·.1)).Nodup) (there : ∀ m ∈ members, m.2 ≠ .null) :
    ReviewRequest.engine reader ⟨content, some members⟩ e = .ok e' ↔
      ∃ next, update reader e (some (.object members)) = .ok next ∧ e' = ⟨next, e.rules⟩ := by
  have same (next : Settings) :
      orRefuse refuseSettings (e.settings.override reader members) = .ok next ↔
        update reader e (some (.object members)) = .ok next := by
    rw [orRefuse_eq_ok_iff, Settings.override_eq_ok_iff_update known distinct there,
      update_eq_ok_iff known]
    constructor
    · exact fun h => ⟨members, rfl, h⟩
    · rintro ⟨_, same, h⟩
      obtain rfl := Json.object.inj (Option.some.inj same)
      exact h
  simp only [ReviewRequest.engine_overrides known, ← same]
  cases orRefuse refuseSettings (e.settings.override reader members) with
  | ok next =>
    constructor
    · exact fun h => ⟨next, rfl, (Except.ok.inj h).symm⟩
    · rintro ⟨_, ⟨⟩, rfl⟩
      rfl
  | error answer => exact ⟨nofun, nofun⟩

theorem accepted_put_iff_lint (known : s.engine.settings.IsReadBy reader)
    (distinct : (members.map (·.1)).Nodup) (there : ∀ m ∈ members, m.2 ≠ .null)
    (plain : Accepted (respond reader s (lint content none)).2) :
    Accepted (respond reader s (put (.object members))).2 ↔
      Accepted (respond reader s (lint content (some (.object members)))).2 := by
  obtain ⟨content_there, -, doc, loaded⟩ := (accepted_lint_iff s content none).mp plain
  refine accepted_put_iff.trans (Iff.trans ?_ (accepted_lint_iff s content (some members)).symm)
  simp only [engine_overrides_eq_ok_iff known distinct there]
  constructor
  · rintro ⟨next, updated⟩
    exact ⟨content_there, ⟨_, next, updated, rfl⟩, doc, loaded⟩
  · rintro ⟨-, ⟨_, next, updated, -⟩, -⟩
    exact ⟨next, updated⟩

theorem lint_override_eq (known : s.engine.settings.IsReadBy reader)
    (distinct : (members.map (·.1)).Nodup) (there : ∀ m ∈ members, m.2 ≠ .null)
    (accepted : Accepted (respond reader s (put (.object members))).2) :
    (respond reader s (lint content (some (.object members)))).2 =
      (respond reader (respond reader s (put (.object members))).1 (lint content none)).2 := by
  obtain ⟨next, updated⟩ := accepted_put_iff.mp accepted
  have engine : ReviewRequest.engine reader ⟨content, some members⟩ s.engine =
      .ok ⟨next, s.engine.rules⟩ :=
    (engine_overrides_eq_ok_iff known distinct there).mpr ⟨next, updated, rfl⟩
  have once : respond reader s _ = _ := respond_lint s content (some members)
  have later : respond reader _ _ = _ := respond_lint ⟨next, ⟨next, s.engine.rules⟩⟩ content none
  rw [engine] at once
  rw [respond_put updated]
  exact (congrArg Prod.snd once).trans (congrArg Prod.snd later).symm

end

/-- Settings that are given again are kept. -/
theorem respond_put_sublist {s : State} (settled : s.IsSettled reader)
    {kept : List (String × Json)} (sub : kept.Sublist s.settings.members) :
    respond reader s (put (.object kept)) = (s, .ok ⟨200, s.settings.toJson⟩) := by
  obtain ⟨settings, used, rules⟩ := s
  obtain rfl : used = settings := settled.shown
  refine respond_put ((update_eq_ok_iff settled.known).mpr ⟨kept, rfl, fun f => ?_⟩)
  cases given : given? f.name kept with
  | none => rfl
  | some v =>
    obtain ⟨found, -⟩ := Json.given?_eq_some_iff.mp given
    obtain ⟨before, behind, rfl, -⟩ := List.lookup_eq_some_iff.mp found
    have here : (f.name, v) ∈ before ++ (f.name, v) :: behind := by simp
    have shown : (f.name, v) ∈ Setting.all.map fun f => (f.name, f.write (used.get f)) :=
      sub.subset here
    obtain ⟨f', -, same⟩ := List.mem_map.mp shown
    obtain rfl := Setting.name_injective (Prod.mk.inj same).1
    obtain rfl := (Prod.mk.inj same).2
    exact f'.read_write _ (settled.known f')

theorem respond_get (s : State) : respond reader s get = (s, .ok ⟨200, s.settings.toJson⟩) := by
  have path : Resource.ofPath? get.path = some .settings := Resource.ofPath?_path .settings
  unfold respond
  rw [path]
  rfl

/-- In every state an object without nulls is accepted for the review of a text that has one if it
is accepted as an update; the review is then the one that follows the update. To give some of the
settings that are shown again is an update that changes nothing. -/
theorem lint_override_eq_put (reader : PatternReader) (start : Settings)
    (known : start.IsReadBy reader) (requests : List Request) (content : String)
    (members : List (String × Json))
    (plain : Accepted (respond reader (after reader (.start start) requests)
      (lint content none)).2)
    (distinct : (members.map (·.1)).Nodup) (there : ∀ m ∈ members, m.2 ≠ .null) :
    let s := after reader (.start start) requests
    (Accepted (respond reader s (put (.object members))).2 ↔
      Accepted (respond reader s (lint content (some (.object members)))).2) ∧
    (Accepted (respond reader s (put (.object members))).2 →
      (respond reader s (lint content (some (.object members)))).2 =
        (respond reader (respond reader s (put (.object members))).1 (lint content none)).2) ∧
    ∃ shown, respond reader s get = (s, .ok ⟨200, .object shown⟩) ∧
      ∀ kept, kept.Sublist shown →
        respond reader s (put (.object kept)) = (s, .ok ⟨200, .object shown⟩) := by
  intro s
  have settled : s.IsSettled reader := ((State.isSettled_start known).after requests).1
  exact ⟨accepted_put_iff_lint settled.known_engine distinct there plain,
    lint_override_eq settled.known_engine distinct there, s.settings.members, respond_get s,
    fun kept sub => respond_put_sublist settled sub⟩

/-- Numerals and names that no setting has are no hindrance. -/
theorem lint_override_eq_put_numeral :
    let s := after .standard (.start default)
      [put (.object [("casing_policy", .string "standard_title_case")])]
    let config := Json.object [("max_retention_days", .string " 5 "),
      ("max_timeout_minutes", .number (.decimal false 300 (-1))), ("colour", .bool true)]
    Accepted (respond .standard s (put config)).2 ∧
      Accepted (respond .standard s (lint "on: push" (some config))).2 ∧
      (respond .standard s (lint "on: push" (some config))).2 =
        (respond .standard (respond .standard s (put config)).1 (lint "on: push" none)).2 := by
  intro s config
  have plain : Accepted (respond .standard s (lint "on: push" none)).2 := by decide +kernel
  have accepted : Accepted (respond .standard s (put config)).2 := by decide +kernel
  obtain ⟨agree, same, -⟩ := lint_override_eq_put .standard default Settings.isReadBy_default
    [put (.object [("casing_policy", .string "standard_title_case")])] "on: push"
    [("max_retention_days", .string " 5 "),
      ("max_timeout_minutes", .number (.decimal false 300 (-1))), ("colour", .bool true)]
    plain (by decide +kernel) (by simp)
  exact ⟨accepted, agree.mp accepted, same accepted⟩

end Service

end FlowLint
