import FlowLint.Proofs.Independence
import FlowLint.Proofs.Table
import FlowLint.Review

/-! Relaxed settings. Settings relax others if their limits are no lower and their policy on titles
asks for no more capitals, all else being equal. A rule narrows if relaxed settings make it lose
places and gain none; every rule of the catalog does (`Catalog.rules_narrow`), and only four of them
can lose any. -/

namespace FlowLint

open FlowLint.Tree (Document load exists_of_toOption)

/-- The settings `s'` relax `s`; how many rules may run at the same time makes no difference. -/
structure Settings.RelaxesTo (s s' : Settings) : Prop where
  casing : s'.casing = s.casing ∨ s'.casing = .standard
  groupFallback : s'.groupFallback = s.groupFallback
  maxTimeoutMinutes : s.maxTimeoutMinutes.value ≤ s'.maxTimeoutMinutes.value
  maxRetentionDays : s.maxRetentionDays.value ≤ s'.maxRetentionDays.value
  maxScriptLines : s.maxScriptLines.value ≤ s'.maxScriptLines.value
  denylist : s'.denylist = s.denylist
  exemptRunners : s'.exemptRunners = s.exemptRunners
  justification : s'.justification = s.justification

namespace Title

theorem breaks_of_standard {policy : Casing} {inner : Bool} {raw : List Char}
    (h : breaks .standard inner raw = true) : breaks policy inner raw = true := by
  unfold breaks at h ⊢
  split at h
  · cases h
  next c rest stripped =>
    simp only [Bool.and_eq_true] at h ⊢
    refine ⟨h.1, ?_⟩
    cases policy with
    | allWords => rfl
    | standard => exact h.2

theorem breaksFrom_standard_sublist (policy : Casing) (count i : Nat) (words : List (List Char)) :
    (breaksFrom .standard count i words).Sublist (breaksFrom policy count i words) := by
  induction words generalizing i with
  | nil => exact .slnil
  | cons word rest ih =>
    rw [breaksFrom, breaksFrom]
    by_cases broken : breaks .standard (0 < i && i + 1 < count) word = true
    · rw [if_pos broken, if_pos (breaks_of_standard broken)]
      exact (ih (i + 1)).cons_cons word
    · rw [if_neg broken]
      split
      · exact (ih (i + 1)).cons word
      · exact ih (i + 1)

/-- A title with the capitals that a policy asks for has those of the standard policy. -/
theorem violations_standard {policy : Casing} {text : String} (h : violations policy text = []) :
    violations .standard text = [] := by
  have none_broken : violationChars policy text.toList = [] := List.map_eq_nil_iff.mp h
  have fewer : (violationChars .standard text.toList).Sublist (violationChars policy text.toList) :=
    breaksFrom_standard_sublist ..
  rw [none_broken, List.sublist_nil] at fewer
  rw [violations, fewer, List.map_nil]

end Title

/-! ### Rules -/

def Verdict.locations (v : Verdict) : List String := v.drafts.map (·.location)

/-- The rules that relaxed settings may silence at a place, whatever they say there. -/
def limitedRules : List String := ["artifact-retention", "inline-script-length", "name-casing"]

/-- What a rule says under relaxed settings it says at places where it says something anyway, and
what is no longer said goes by a limit or by the policy on titles. -/
structure Rule.Narrows (r : Rule) : Prop where
  fewer : ∀ {w : Workflow} {s s' : Settings}, s.RelaxesTo s' →
    (r.check w s').locations ⊆ (r.check w s).locations
  lost : ∀ {w : Workflow} {s s' : Settings}, s.RelaxesTo s' → ∀ d ∈ (r.check w s).drafts,
    d.location ∉ (r.check w s').locations →
      r.id = "job-timeout" ∧ d.severity = some .improvement ∨ r.id ∈ limitedRules

namespace Rule.Narrows

variable {r : Rule}

theorem of_eq
    (h : ∀ (w : Workflow) {s s' : Settings}, s.RelaxesTo s' → r.check w s' = r.check w s) :
    r.Narrows where
  fewer relaxed := by
    rw [h _ relaxed]
    exact List.Subset.refl _
  lost relaxed d hd gone := by
    rw [h _ relaxed] at gone
    exact absurd (List.mem_map_of_mem hd) gone

theorem of_limited (limited : r.id ∈ limitedRules)
    (fewer : ∀ (w : Workflow) {s s' : Settings}, s.RelaxesTo s' →
      (r.check w s').locations ⊆ (r.check w s).locations) : r.Narrows where
  fewer := fewer _
  lost _ _ _ _ := .inr limited

/-- A rule that ignores the settings. -/
theorem of_fixed {id description : String} {category : Category} {severity : Severity}
    {check : Workflow → List Draft} :
    (Rule.total id category severity description fun w _ => check w).Narrows :=
  of_eq fun _ _ _ _ => rfl

end Rule.Narrows

/-- Drafts that are made one by one have fewer places if each place that is left was there. -/
theorem locations_filterMap_subset {α : Type} {f f' : α → Option Draft} {l : List α}
    (h : ∀ a d', f' a = some d' → ∃ d, f a = some d ∧ d.location = d'.location) :
    (l.filterMap f').map (·.location) ⊆ (l.filterMap f).map (·.location) := by
  intro p hp
  obtain ⟨d', hd', rfl⟩ := List.mem_map.mp hp
  obtain ⟨a, ha, made⟩ := List.mem_filterMap.mp hd'
  obtain ⟨d, made_before, same⟩ := h a d' made
  exact List.mem_map.mpr ⟨d, List.mem_filterMap.mpr ⟨a, ha, made_before⟩, same⟩

namespace Security

variable {w : Workflow} {s s' : Settings}

theorem isJustified_relaxed (h : s.RelaxesTo s') (line : Nat) :
    isJustified w s' line = isJustified w s line := by
  rw [isJustified, isJustified, h.justification]

/-- The time limit of the job is longer than the settings allow, and no comment excuses it. -/
def IsOverlong (w : Workflow) (s : Settings) (j : Job) : Prop :=
  ∃ node minutes, j.timeoutNode = some node ∧ node.asInt? = some minutes ∧
    (s.maxTimeoutMinutes.value : Int) < minutes ∧ isJustified w s node.origin.line = false

theorem IsOverlong.of_relaxed {j : Job} (h : s.RelaxesTo s') (long : IsOverlong w s' j) :
    IsOverlong w s j := by
  obtain ⟨node, minutes, found, read, exceeds, bare⟩ := long
  have lower : (s.maxTimeoutMinutes.value : Int) ≤ s'.maxTimeoutMinutes.value :=
    Int.ofNat_le.mpr h.maxTimeoutMinutes
  exact ⟨node, minutes, found, read, by omega, isJustified_relaxed h _ ▸ bare⟩

theorem jobTimeout_cases {d : Draft} (hd : d ∈ jobTimeout w s) :
    ∃ j ∈ w.jobs, j.isCall = false ∧ (j.timeoutNode = none ∧ d.location = j.path ∨
      IsOverlong w s j ∧ d.location = Tree.Pointer.child j.path "timeout-minutes" ∧
        d.severity = some .improvement) := by
  obtain ⟨j, hj, made⟩ := List.mem_filterMap.mp hd
  split at made
  · cases made
  next own =>
    refine ⟨j, hj, by simpa using own, ?_⟩
    split at made
    next missing =>
      cases made
      exact .inl ⟨missing, rfl⟩
    next node found =>
      split at made
      · cases made
      next minutes read =>
        split at made
        · cases made
        next kept =>
          cases made
          simp only [Bool.or_eq_true, decide_eq_true_eq, not_or, Int.not_le,
            Bool.not_eq_true] at kept
          exact .inr ⟨⟨node, minutes, found, read, kept⟩, rfl, rfl⟩

theorem mem_jobTimeout_of_missing {j : Job} (hj : j ∈ w.jobs) (own : j.isCall = false)
    (missing : j.timeoutNode = none) : j.path ∈ (jobTimeout w s).map (·.location) := by
  rw [jobTimeout, List.map_filterMap, List.mem_filterMap]
  refine ⟨j, hj, ?_⟩
  rw [if_neg (by simp [own]), missing]
  rfl

theorem mem_jobTimeout_of_overlong {j : Job} (hj : j ∈ w.jobs) (own : j.isCall = false)
    (long : IsOverlong w s j) :
    Tree.Pointer.child j.path "timeout-minutes" ∈ (jobTimeout w s).map (·.location) := by
  obtain ⟨node, minutes, found, read, exceeds, bare⟩ := long
  rw [jobTimeout, List.map_filterMap, List.mem_filterMap]
  refine ⟨j, hj, ?_⟩
  rw [if_neg (by simp [own])]
  simp only [found, read]
  rw [if_neg (by simp [exceeds, bare])]
  rfl

theorem jobTimeout_narrows {description : String} :
    (Rule.total "job-timeout" .pinningTimeouts .mustFix description jobTimeout).Narrows where
  fewer {w s s'} h p hp := by
    change p ∈ (jobTimeout w s').map (·.location) at hp
    change p ∈ (jobTimeout w s).map (·.location)
    obtain ⟨d, hd, rfl⟩ := List.mem_map.mp hp
    obtain ⟨j, hj, own, ⟨missing, place⟩ | ⟨long, place, -⟩⟩ := jobTimeout_cases hd
    · rw [place]
      exact mem_jobTimeout_of_missing hj own missing
    · rw [place]
      exact mem_jobTimeout_of_overlong hj own (long.of_relaxed h)
  lost {w s s'} h d hd gone := by
    change d ∈ jobTimeout w s at hd
    change d.location ∉ (jobTimeout w s').map (·.location) at gone
    obtain ⟨j, hj, own, ⟨missing, place⟩ | ⟨-, -, severity⟩⟩ := jobTimeout_cases hd
    · rw [place] at gone
      exact absurd (mem_jobTimeout_of_missing hj own missing) gone
    · exact .inl ⟨rfl, severity⟩

theorem rules_narrow : ∀ r ∈ rules, r.Narrows := by
  simp only [rules, List.forall_mem_cons]
  refine ⟨.of_fixed, .of_fixed, .of_eq fun w s s' h => ?_, .of_eq fun w s s' h => ?_,
    .of_eq fun w s s' h => ?_, .of_fixed, jobTimeout_narrows, .of_eq fun w s s' h => ?_,
    .of_eq fun w s s' h => ?_, .of_fixed, .of_fixed, .of_fixed, .of_fixed, .of_fixed,
    List.forall_mem_nil _⟩
  · simp only [Rule.total, runnerPinning, h.exemptRunners, h.denylist]
  · simp only [Rule.total, slimRunnerSecrets, h.exemptRunners, isJustified_relaxed h]
  · simp only [Rule.total, secretScope, isJustified_relaxed h]
  · simp only [Rule.total, concurrencyRequired, h.groupFallback]
  · simp only [Rule.total, concurrencyGroup, h.groupFallback]

end Security

namespace Practice

/-- A limit that cannot be written stops the rule where a lower one may not. -/
theorem noRetention_relaxed {limit limit' : Nat} (higher : limit ≤ limit') (j : Job) (st : Step) :
    (∃ fault, noRetention j st limit' = .error fault) ∨
      ∃ d d', noRetention j st limit = .ok d ∧ noRetention j st limit' = .ok d' ∧
        d'.location = d.location := by
  unfold noRetention Text.Integer.write
  by_cases large : Text.Integer.bound ≤ limit'
  · rw [if_pos large]
    exact .inl ⟨.tooLarge, rfl⟩
  · rw [if_neg large, if_neg fun large' => large (Nat.le_trans large' higher)]
    exact .inr ⟨_, _, rfl, rfl, rfl⟩

/-- Where the rule breaks off, a higher limit makes it break off too; others it silences at most. -/
theorem retentionOf_relaxed {limit limit' : Nat} (higher : limit ≤ limit') (j : Job) (st : Step) :
    (∃ fault, retentionOf limit' j st = .error fault) ∨
      ∃ d d', retentionOf limit j st = .ok d ∧ retentionOf limit' j st = .ok d' ∧
        d'.toList.map (·.location) ⊆ d.toList.map (·.location) := by
  unfold retentionOf
  split
  · exact .inr ⟨none, none, rfl, rfl, List.Subset.refl _⟩
  · split
    · obtain ⟨fault, broken⟩ | ⟨d, d', made, made', same⟩ := noRetention_relaxed higher j st
      · rw [broken]
        exact .inl ⟨fault, rfl⟩
      · rw [made, made']
        exact .inr ⟨some d, some d', rfl, rfl, by simp [same]⟩
    · split
      · exact .inr ⟨none, none, rfl, rfl, List.Subset.refl _⟩
      next text _ =>
        split
        · exact .inr ⟨none, none, rfl, rfl, List.Subset.refl _⟩
        · split
          next fault _ => exact .inl ⟨fault, rfl⟩
          next days _ =>
            refine .inr ⟨_, _, rfl, rfl, ?_⟩
            by_cases long : (limit' : Int) < days
            · rw [if_pos long, if_pos (show (limit : Int) < days by omega)]
              exact List.Subset.refl _
            · rw [if_neg long]
              exact List.nil_subset _

theorem retentionsOf_subset {limit limit' : Nat} (higher : limit ≤ limit')
    (steps : List (Job × Step)) :
    (retentionsOf limit' steps).locations ⊆ (retentionsOf limit steps).locations := by
  induction steps with
  | nil => exact List.Subset.refl _
  | cons p rest ih =>
    obtain ⟨j, st⟩ := p
    rw [retentionsOf, retentionsOf]
    rcases retentionOf_relaxed higher j st with ⟨fault, broken⟩ | ⟨d, d', made, made', fewer⟩
    · rw [broken]
      exact List.nil_subset _
    · rw [made, made']
      simp only [Verdict.locations, List.map_append]
      exact List.append_subset.mpr ⟨List.Subset.trans fewer (List.subset_append_left _ _),
        List.Subset.trans ih (List.subset_append_right _ _)⟩

theorem rules_narrow : ∀ r ∈ rules, r.Narrows := by
  simp only [rules, List.forall_mem_cons]
  refine ⟨.of_fixed, .of_fixed, .of_fixed, .of_limited (by decide) fun w s s' h => ?_, .of_fixed,
    .of_limited (by decide) fun w s s' h => ?_, .of_fixed, List.forall_mem_nil _⟩
  · exact retentionsOf_subset h.maxRetentionDays w.steps
  · refine locations_filterMap_subset fun x d' made => ?_
    obtain ⟨j, st, script⟩ := x
    have lower := h.maxScriptLines
    simp only at made ⊢
    split at made
    next long =>
      cases made
      exact ⟨_, if_pos (by omega), rfl⟩
    · cases made

end Practice

namespace Style

theorem rules_narrow : ∀ r ∈ rules, r.Narrows := by
  simp only [rules, List.forall_mem_cons]
  refine ⟨.of_limited (by decide) fun w s s' h => ?_, .of_fixed, .of_fixed, .of_fixed, .of_fixed,
    .of_fixed, .of_fixed, .of_fixed, List.forall_mem_nil _⟩
  refine locations_filterMap_subset fun x d' made => ?_
  obtain ⟨location, name⟩ := x
  simp only at made ⊢
  split at made
  · cases made
  next bad broken =>
    cases made
    cases kept : Title.violations s.casing name with
    | nil =>
      have none_broken : Title.violations s'.casing name = [] := by
        rcases h.casing with same | standard
        · rw [same, kept]
        · rw [standard]
          exact Title.violations_standard kept
      exact absurd none_broken broken
    | cons word rest => exact ⟨_, rfl, rfl⟩

end Style

theorem Catalog.rules_narrow : ∀ r ∈ rules, r.Narrows := by
  intro r hr
  simp only [rules, List.mem_append] at hr
  rcases hr with (hr | hr) | hr
  · exact Security.rules_narrow r hr
  · exact Practice.rules_narrow r hr
  · exact Style.rules_narrow r hr

/-! ### Reviews -/

/-- The places of the findings, each with the name of the rule. -/
def Review.places (r : Review) : List (String × String) :=
  r.findings.map fun f => (f.ruleId, f.location)

theorem Review.mem_places {rules : List Rule} {r : Rule} (hr : r ∈ rules) {s : Settings}
    {doc : Document} {f : Finding} (hf : f ∈ (r.evaluate (.ofDocument doc) s).findings) :
    (f.ruleId, f.location) ∈ (Review.ofDocument rules s doc).places := by
  have evaluated : r.evaluate (.ofDocument doc) s ∈ Rule.evaluateAll rules (.ofDocument doc) s :=
    List.mem_map_of_mem hr
  obtain ⟨g, hg, rule, place⟩ := exists_mem_merge evaluated hf
  exact List.mem_map.mpr ⟨g, hg, by rw [rule, place]⟩

theorem Review.exists_rule {rules : List Rule} {s : Settings} {doc : Document} {f : Finding}
    (hf : f ∈ (Review.ofDocument rules s doc).findings) :
    ∃ r ∈ rules, ∃ d ∈ (r.check (.ofDocument doc) s).drafts, f = r.stamp (.ofDocument doc) d := by
  obtain ⟨result, hresult, found⟩ := mem_of_mem_merge hf
  obtain ⟨r, hr, rfl⟩ := List.mem_map.mp hresult
  obtain ⟨d, hd, rfl⟩ := List.mem_map.mp found
  exact ⟨r, hr, d, hd, rfl⟩

/-- Relaxed settings never make a rule find something at a place where it found nothing. Where it
no longer finds anything, what it found was about a time limit, of the lesser severity, or about
retention, the length of a script or a title. -/
theorem places_relaxed {s s' : Settings} (h : s.RelaxesTo s') (doc : Document) :
    (Review.ofDocument Catalog.rules s' doc).places ⊆
        (Review.ofDocument Catalog.rules s doc).places ∧
      ∀ f ∈ (Review.ofDocument Catalog.rules s doc).findings,
        (f.ruleId, f.location) ∉ (Review.ofDocument Catalog.rules s' doc).places →
          f.ruleId = "job-timeout" ∧ f.severity = .improvement ∨
            f.ruleId ∈ ["artifact-retention", "inline-script-length", "name-casing"] := by
  constructor
  -- Ranking may drop a finding, but only for one of the same rule at the same place.
  · intro p hp
    obtain ⟨f, hf, rfl⟩ := List.mem_map.mp hp
    obtain ⟨r, hr, d', hd', rfl⟩ := Review.exists_rule hf
    obtain ⟨d, hd, same⟩ := List.mem_map.mp
      ((Catalog.rules_narrow r hr).fewer h (List.mem_map_of_mem hd'))
    have there := Review.mem_places hr (List.mem_map_of_mem (f := r.stamp (.ofDocument doc)) hd)
    have fits := Catalog.rules_fit r hr (.ofDocument doc)
    simp only [Rule.stamp, (fits s d hd).ruleId, same] at there
    simpa only [Rule.stamp, (fits s' d' hd').ruleId] using there
  · intro f hf gone
    obtain ⟨r, hr, d, hd, rfl⟩ := Review.exists_rule hf
    have fits := Catalog.rules_fit r hr (.ofDocument doc)
    have silent : d.location ∉ (r.check (.ofDocument doc) s').locations := by
      intro there
      obtain ⟨d', hd', same⟩ := List.mem_map.mp there
      have kept := Review.mem_places hr (List.mem_map_of_mem (f := r.stamp (.ofDocument doc)) hd')
      simp only [Rule.stamp, (fits s d hd).ruleId] at gone
      simp only [Rule.stamp, (fits s' d' hd').ruleId, same] at kept
      exact gone kept
    have rule : (r.stamp (.ofDocument doc) d).ruleId = r.id := by
      simp [Rule.stamp, (fits s d hd).ruleId]
    rw [rule]
    rcases (Catalog.rules_narrow r hr).lost h d hd silent with ⟨timeout, severity⟩ | limited
    · exact .inl ⟨timeout, by simp [Rule.stamp, severity]⟩
    · exact .inr limited

/-- Settings under which a job may take an hour, and small words in titles need no capital. -/
def relaxed : Settings :=
  { (default : Settings) with casing := .standard, maxTimeoutMinutes := ⟨60, Nat.succ_pos 59⟩ }

theorem places_relaxed_hour : Settings.RelaxesTo {} relaxed ∧ ∃ doc,
    load "jobs:\n  a:\n    name: Build the App\n    timeout-minutes: 30\n" = .ok doc ∧
    (Review.ofDocument Catalog.rules {} doc).places =
      [("top-level-permissions", "/permissions"), ("name-casing", "/jobs/a/name"),
        ("job-timeout", "/jobs/a/timeout-minutes")] ∧
    (Review.ofDocument Catalog.rules relaxed doc).places =
      [("top-level-permissions", "/permissions")] ∧
    (Review.ofDocument Catalog.rules relaxed doc).places ⊆
      (Review.ofDocument Catalog.rules {} doc).places := by
  have relaxes : Settings.RelaxesTo {} relaxed :=
    ⟨.inr rfl, rfl, by decide, by decide, by decide, rfl, rfl, rfl⟩
  obtain ⟨doc, loaded, found⟩ := exists_of_toOption (show
    (load "jobs:\n  a:\n    name: Build the App\n    timeout-minutes: 30\n").toOption.map
      (fun doc => ((Review.ofDocument Catalog.rules {} doc).places,
        (Review.ofDocument Catalog.rules relaxed doc).places)) =
      some ([("top-level-permissions", "/permissions"), ("name-casing", "/jobs/a/name"),
        ("job-timeout", "/jobs/a/timeout-minutes")],
        [("top-level-permissions", "/permissions")]) by decide +kernel)
  obtain ⟨before, after⟩ := Prod.mk.inj found
  exact ⟨relaxes, doc, loaded, before, after, (places_relaxed relaxes doc).1⟩

end FlowLint
