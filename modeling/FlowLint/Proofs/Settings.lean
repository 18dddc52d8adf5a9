import FlowLint.Proofs.Shape
import FlowLint.Settings.Update

/-! Settings one by one. What is collected of all settings is what is read for each of them
(`Setting.collect_eq_ok_iff`), and reading undoes writing where the pattern of a setting is the one
that its text is read as (`Setting.read_write`). So settings are read, put over others and updated
one by one (`Settings.ofMembers_eq_ok_iff`, `Settings.override_eq_ok_iff`,
`Update.apply_eq_ok_iff`), and an update sets what is given to it and keeps the rest. All of this
holds for every reader of patterns. -/

namespace FlowLint

open Json (Checked)

variable {reader : PatternReader}

/-- The pattern is the one that its text is read as. -/
def SearchPattern.IsReadBy (reader : PatternReader) (p : SearchPattern) : Prop :=
  reader p.text = .ok p.occurs

theorem SearchPattern.read_eq_ok_iff {text : String} {p : SearchPattern} :
    SearchPattern.read reader text = .ok p ↔ p.text = text ∧ p.IsReadBy reader := by
  unfold SearchPattern.read IsReadBy
  cases found : reader text with
  | ok occurs =>
    constructor
    · intro h
      obtain rfl := Except.ok.inj h
      exact ⟨rfl, found⟩
    · rintro ⟨rfl, h⟩
      obtain rfl := Except.ok.inj (found.symm.trans h)
      rfl
  | error e =>
    constructor
    · exact nofun
    · rintro ⟨rfl, h⟩
      exact nomatch found.symm.trans h

namespace Shape

theorem limit_ofNat (l : Limit) : limit (.ofNat l.value) = .ok l := by
  have pos : 1 ≤ ((l.value : Int)).toNat := l.pos
  unfold limit
  rw [show Json.Shape.integer (.ofNat l.value) = .ok (l.value : Int) from rfl]
  simp only [Checked.andThen, dif_pos pos]
  rfl

theorem pattern_eq_ok_iff {v : Json} {p : SearchPattern} :
    pattern reader v = .ok p ↔ v = .string p.text ∧ p.IsReadBy reader := by
  have read_iff (s : String) : pattern reader (.string s) = .ok p ↔
      SearchPattern.read reader s = .ok p := by
    simp only [pattern, Json.Shape.text_string, Checked.andThen]
    split
    next found => simp [found]
    all_goals
      next failed => exact ⟨nofun, fun found => nomatch failed.symm.trans found⟩
  cases v with
  | string s => rw [read_iff, SearchPattern.read_eq_ok_iff, Json.string.injEq, eq_comm]
  | _ => exact ⟨nofun, nofun⟩

end Shape

namespace Setting

theorem mem_all (f : Setting) : f ∈ all := by cases f <;> decide

theorem name_injective {f g : Setting} (h : f.name = g.name) : f = g := by
  cases f <;> cases g <;> first | rfl | exact absurd h (by decide)

/-- The pattern that a setting may be is the one that its text is read as. -/
def IsReadBy (reader : PatternReader) : (f : Setting) → f.Value → Prop
  | .denylist, p | .justification, p => SearchPattern.IsReadBy reader p
  | _, _ => True

/-- Reading undoes writing. -/
theorem read_write : (f : Setting) → (x : f.Value) → f.IsReadBy reader x →
    f.read reader (f.write x) = .ok x
  | .casing, c, _ => by cases (c : Casing) <;> rfl
  | .groupFallback, g, _ => by cases (g : GroupFallback) <;> rfl
  | .maxTimeoutMinutes, l, _ | .maxRetentionDays, l, _ | .maxScriptLines, l, _ =>
    Shape.limit_ofNat l
  | .denylist, _, known | .justification, _, known => Shape.pattern_eq_ok_iff.mpr ⟨rfl, known⟩
  | .exemptRunners, items, _ => Json.Shape.itemsFrom_map Json.Shape.text_string items 0
  | .maxWorkers, none, _ => rfl
  | .maxWorkers, some l, _ =>
    (Json.Shape.optional_eq_ok_iff (v := .ofNat l.value) nofun).mpr ⟨l, Shape.limit_ofNat l, rfl⟩

theorem isReadBy_of_read {v : Json} : (f : Setting) → {x : f.Value} →
    f.read reader v = .ok x → f.IsReadBy reader x
  | .denylist, _, h | .justification, _, h => (Shape.pattern_eq_ok_iff.mp h).2
  | .casing, _, _ | .groupFallback, _, _ | .maxTimeoutMinutes, _, _ | .maxRetentionDays, _, _
  | .maxScriptLines, _, _ | .exemptRunners, _, _ | .maxWorkers, _, _ => trivial

theorem exists_given {α : Type} {read readGiven : Json → Checked α} {write : α → Json}
    (round : ∀ x, read (write x) = .ok x) {v : Json}
    (same : ∀ x, read v = .ok x ↔ readGiven v = .ok x) (x : α) :
    read v = .ok x ↔ ∃ g, readGiven v = .ok g ∧ read (write g) = .ok x := by
  constructor
  · intro h
    exact ⟨x, (same x).mp h, round x⟩
  · rintro ⟨g, hg, h⟩
    obtain rfl := Checked.ok.inj ((round g).symm.trans h)
    exact (same g).mpr hg

theorem exists_text_pattern (v : Json) (p : SearchPattern) :
    Shape.pattern reader v = .ok p ↔
      ∃ s, Json.Shape.text v = .ok s ∧ Shape.pattern reader (.string s) = .ok p := by
  simp only [Json.Shape.text_eq_ok_iff, Shape.pattern_eq_ok_iff]
  constructor
  · rintro ⟨rfl, known⟩
    exact ⟨p.text, rfl, rfl, known⟩
  · rintro ⟨s, rfl, same, known⟩
    exact ⟨same, known⟩

/-- A value that is not null is read in two steps, as an update does it, as it is in one. -/
theorem read_eq_ok_iff {v : Json} (h : v ≠ .null) :
    (f : Setting) → (x : f.Value) →
      (f.read reader v = .ok x ↔
        ∃ g, f.readGiven v = .ok g ∧ f.read reader (f.writeGiven g) = .ok x)
  | .casing, c => exists_given (read_write .casing · trivial) (fun _ => Iff.rfl) c
  | .groupFallback, g => exists_given (read_write .groupFallback · trivial) (fun _ => Iff.rfl) g
  | .maxTimeoutMinutes, l => exists_given Shape.limit_ofNat (fun _ => Iff.rfl) l
  | .maxRetentionDays, l => exists_given Shape.limit_ofNat (fun _ => Iff.rfl) l
  | .maxScriptLines, l => exists_given Shape.limit_ofNat (fun _ => Iff.rfl) l
  | .denylist, p | .justification, p => exists_text_pattern v p
  | .exemptRunners, items => exists_given (read_write .exemptRunners · trivial)
      (fun _ => ⟨Json.Shape.list_eq_ok_congr, Json.Shape.list_eq_ok_congr⟩) items
  | .maxWorkers, x => by
    have written (l : Limit) : Json.Shape.optional Shape.limit (.ofNat l.value) = .ok (some l) :=
      @read_write reader .maxWorkers (some l) trivial
    refine (Json.Shape.optional_eq_ok_iff h).trans ?_
    refine exists_congr fun l => and_congr_right fun _ => ?_
    change some l = x ↔ Json.Shape.optional Shape.limit (.ofNat l.value) = .ok x
    rw [written]
    exact ⟨congrArg _, Checked.ok.inj⟩

/-- What is collected is what is read for each setting. -/
theorem collect_eq_ok_iff {V : Setting → Type} {read : (f : Setting) → Checked (V f)}
    {x : (f : Setting) → V f} : collect read = .ok x ↔ ∀ f, read f = .ok (x f) := by
  constructor
  · intro h
    simp only [collect, Checked.seq_eq_ok_iff, Checked.map_eq_ok_iff] at h
    obtain ⟨_, _, ⟨_, _, ⟨_, _, ⟨_, _, ⟨_, _, ⟨_, _, ⟨_, _, ⟨_, _, ⟨_, casing, rfl⟩, groupFallback,
      rfl⟩, maxTimeoutMinutes, rfl⟩, maxRetentionDays, rfl⟩, maxScriptLines, rfl⟩, denylist, rfl⟩,
      exemptRunners, rfl⟩, justification, rfl⟩, maxWorkers, rfl⟩ := h
    intro f
    cases f <;> assumption
  · intro h
    have eight := Checked.seq_of_eq (Checked.seq_of_eq (Checked.seq_of_eq (Checked.seq_of_eq
      (Checked.seq_of_eq (Checked.seq_of_eq (Checked.seq_of_eq (Checked.map_of_eq
        (f := collect.gather) (h .casing)) (h .groupFallback)) (h .maxTimeoutMinutes))
        (h .maxRetentionDays)) (h .maxScriptLines)) (h .denylist)) (h .exemptRunners))
        (h .justification)
    refine (Checked.seq_of_eq eight (h .maxWorkers)).trans (congrArg _ (funext fun f => ?_))
    cases f <;> rfl

end Setting

theorem Settings.of_eq_iff {x : (f : Setting) → f.Value} {s : Settings} :
    Settings.of x = s ↔ x = s.get := by
  constructor
  · rintro rfl
    funext f
    cases f <;> rfl
  · rintro rfl
    rfl

/-- The patterns of the settings are those that their texts are read as. -/
def Settings.IsReadBy (reader : PatternReader) (s : Settings) : Prop :=
  ∀ f : Setting, f.IsReadBy reader (s.get f)

theorem PatternReader.standard_eq_ok {text : String} {p : Pattern}
    (h : (Pattern.read (fun _ => none) text).toOption = some p) :
    PatternReader.standard text = .ok p.occurs := by
  unfold PatternReader.standard PatternReader.naming
  cases found : Pattern.read (fun _ => none) text with
  | ok q =>
    rw [found] at h
    obtain rfl := Option.some.inj h
    rfl
  | error e =>
    rw [found] at h
    cases h

theorem Settings.isReadBy_default : (default : Settings).IsReadBy .standard := fun
  | .denylist => PatternReader.standard_eq_ok (by decide +kernel)
  | .justification => PatternReader.standard_eq_ok (by decide +kernel)
  | .casing | .groupFallback | .maxTimeoutMinutes | .maxRetentionDays | .maxScriptLines
  | .exemptRunners | .maxWorkers => trivial

/-! ### Members -/

open Json (given? given?_eq_some_iff lookup_cons lookup_foldl_insert lookup_reverse)

/-- Of members that are named after settings, the one with a setting's name is the setting's. -/
theorem lookup_filterMap_settings (g : Setting → Option Json) (f : Setting) (l : List Setting) :
    (l.filterMap fun f => (g f).map (f.name, ·)).lookup f.name = if f ∈ l then g f else none := by
  induction l with
  | nil => rfl
  | cons f' rest ih =>
    by_cases same : f = f'
    · subst same
      cases absent : g f with
      | none => simp [absent, ih]
      | some v => simp [absent]
    · have other : f.name ≠ f'.name := fun h => same (Setting.name_injective h)
      cases given : g f' with
      | none => simp [given, ih, same]
      | some v => simp [given, lookup_cons, other, ih, same]

theorem Settings.lookup_members (s : Settings) (f : Setting) :
    s.members.lookup f.name = some (f.write (s.get f)) := by
  have listed : s.members = Setting.all.filterMap fun f =>
      (some (f.write (s.get f))).map (f.name, ·) := by
    rw [members, ← List.filterMap_eq_map]
    rfl
  rw [listed, lookup_filterMap_settings, if_pos f.mem_all]

theorem Update.lookup_members (u : Update) (f : Setting) :
    u.members.lookup f.name = (u.given f).map f.writeGiven := by
  have listed : u.members = Setting.all.filterMap fun f =>
      ((u.given f).map f.writeGiven).map (f.name, ·) := by
    simp only [members, Option.map_map, Function.comp_def]
  rw [listed, lookup_filterMap_settings, if_pos f.mem_all]

theorem Update.nodup_members (u : Update) : (u.members.map (·.1)).Nodup := by
  have names : (Setting.all.map Setting.name).Nodup := by decide +kernel
  have sub : (u.members.map (·.1)).Sublist (Setting.all.map Setting.name) := by
    unfold members
    induction Setting.all with
    | nil => exact .slnil
    | cons f rest ih =>
      rw [List.filterMap_cons]
      cases u.given f with
      | none => exact ih.cons f.name
      | some g => exact ih.cons_cons f.name
  exact names.sublist sub

/-! ### Settings one by one -/

/-- Settings are read one by one; for a member that is not there stands the setting by default. -/
theorem Settings.ofMembers_eq_ok_iff {members : List (String × Json)} {s : Settings} :
    Settings.ofMembers reader members = .ok s ↔
      ∀ f : Setting, (members.lookup f.name).elim (Settings.get default f = s.get f)
        (f.read reader · = .ok (s.get f)) := by
  simp only [ofMembers, Checked.map_eq_ok_iff, Setting.collect_eq_ok_iff, of_eq_iff,
    exists_eq_right, Json.Shape.member_eq_ok_iff]

/-- What is given to an update is read in two steps, and what is null is not given. -/
theorem Update.ofMembers_eq_ok_iff {members : List (String × Json)} {u : Update} :
    Update.ofMembers members = .ok u ↔
      ∀ f : Setting, (members.lookup f.name).elim (none = u.given f)
        (Json.Shape.optional f.readGiven · = .ok (u.given f)) := by
  have mk_iff (g : (f : Setting) → Option f.Given) : Update.mk g = u ↔ g = u.given :=
    ⟨congrArg Update.given, congrArg Update.mk⟩
  simp only [ofMembers, Checked.map_eq_ok_iff, Setting.collect_eq_ok_iff, mk_iff,
    exists_eq_right, Json.Shape.member_eq_ok_iff]

/-- Members put over settings change the settings that they name. -/
theorem Settings.override_eq_ok_iff {s s' : Settings} (known : s.IsReadBy reader)
    {changes : List (String × Json)} :
    s.override reader changes = .ok s' ↔
      ∀ f : Setting, (changes.reverse.lookup f.name).elim (s.get f = s'.get f)
        (f.read reader · = .ok (s'.get f)) := by
  unfold override
  rw [ofMembers_eq_ok_iff]
  refine forall_congr' fun f => ?_
  rw [lookup_foldl_insert, s.lookup_members]
  cases changes.reverse.lookup f.name with
  | some v => exact Iff.rfl
  | none =>
    change f.read reader (f.write (s.get f)) = .ok (s'.get f) ↔ s.get f = s'.get f
    rw [f.read_write _ (known f)]
    exact ⟨Checked.ok.inj, congrArg _⟩

theorem Update.apply_eq_ok_iff {u : Update} {s s' : Settings} (known : s.IsReadBy reader) :
    u.apply reader s = .ok s' ↔
      ∀ f : Setting, ((u.given f).map f.writeGiven).elim (s.get f = s'.get f)
        (f.read reader · = .ok (s'.get f)) := by
  simp only [apply, Settings.override_eq_ok_iff known, lookup_reverse u.nodup_members,
    u.lookup_members]

/-- A member is read in two steps, once for the update and again when it is applied, as it is read
in one; a member that is null is passed over. -/
theorem Setting.exists_read_iff (f : Setting) (members : List (String × Json)) (x y : f.Value) :
    (∃ g : Option f.Given,
      (members.lookup f.name).elim (none = g) (Json.Shape.optional f.readGiven · = .ok g) ∧
        (g.map f.writeGiven).elim (x = y) (f.read reader · = .ok y)) ↔
      (given? f.name members).elim (x = y) (f.read reader · = .ok y) := by
  unfold given?
  split
  next null =>
    simp only [null]
    constructor
    · rintro ⟨g, hg, h⟩
      obtain rfl := Checked.ok.inj hg
      exact h
    · exact fun h => ⟨none, rfl, h⟩
  next found other =>
    cases found : members.lookup f.name with
    | none => exact ⟨fun ⟨_, absent, h⟩ => by subst absent; exact h, fun h => ⟨none, rfl, h⟩⟩
    | some v =>
      have there : v ≠ .null := fun null => other (found.trans (congrArg some null))
      simp only [Option.elim_some, Json.Shape.optional_eq_ok_iff there, read_eq_ok_iff there f y]
      constructor
      · rintro ⟨_, ⟨g, hg, rfl⟩, h⟩
        exact ⟨g, hg, h⟩
      · rintro ⟨g, hg, h⟩
        exact ⟨some g, ⟨g, hg, rfl⟩, h⟩

/-- An object is accepted as an update if each setting that it gives can be read; it sets these, and
the others stay as they are. -/
theorem Update.exists_apply_iff {members : List (String × Json)} {s s' : Settings}
    (known : s.IsReadBy reader) :
    (∃ u, Update.ofMembers members = .ok u ∧ u.apply reader s = .ok s') ↔
      ∀ f : Setting, (given? f.name members).elim (s.get f = s'.get f)
        (f.read reader · = .ok (s'.get f)) := by
  simp only [← Setting.exists_read_iff, ofMembers_eq_ok_iff, apply_eq_ok_iff known]
  constructor
  · rintro ⟨u, hread, happly⟩ f
    exact ⟨u.given f, hread f, happly f⟩
  · intro h
    obtain ⟨g, hg⟩ := Classical.axiomOfChoice h
    exact ⟨⟨g⟩, fun f => (hg f).1, fun f => (hg f).2⟩

/-- Settings are read again as they were written. -/
theorem Settings.ofJson_toJson {s : Settings} (known : s.IsReadBy reader) :
    Settings.ofJson reader s.toJson = .ok s := by
  change ofMembers reader s.members = .ok s
  rw [ofMembers_eq_ok_iff]
  intro f
  rw [s.lookup_members]
  exact f.read_write (s.get f) (known f)

/-- Settings that keep some of others and read the rest have patterns that were read. -/
theorem Settings.isReadBy_of_given {s s' : Settings} {given : Setting → Option Json}
    (known : s.IsReadBy reader)
    (h : ∀ f : Setting, (given f).elim (s.get f = s'.get f) (f.read reader · = .ok (s'.get f))) :
    s'.IsReadBy reader := by
  intro f
  have step := h f
  cases here : given f with
  | none =>
    rw [here] at step
    exact step ▸ known f
  | some v =>
    rw [here] at step
    exact f.isReadBy_of_read step

end FlowLint
