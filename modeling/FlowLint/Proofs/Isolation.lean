import FlowLint.Proofs.OutsideJob
import FlowLint.Proofs.Table

/-! Jobs do not disturb one another. What the rules say of a job they say as well of the document in
which the other jobs are left out (`findings_isolated`). The rules that look at more than the parts
of a workflow are treated one by one: secrets are told apart by their pointers, comments by the
lines of the text, which stay, and an anchor is passed over only for an alias above it, which stands
in the same job or holds it. -/

namespace FlowLint

open FlowLint.Tree (Node Scalar Mapping Document Origin Pointer.child Pointer.descendant
  Pointer.isWithin Pointer.segments)

/-- What the check says of the job is the same when the other jobs are left out. -/
def Isolated (doc : Document) (job : String) (s : Settings)
    (check : Workflow → Settings → List Draft) : Prop :=
  (check (.ofDocument (doc.keepJob job)) s).filter (inJob job ·.location) =
    (check (.ofDocument doc) s).filter (inJob job ·.location)

variable {doc : Document} {job : String} {s : Settings}

theorem isJustified_keepJob (line : Nat) :
    Security.isJustified (.ofDocument (doc.keepJob job)) s line =
      Security.isJustified (.ofDocument doc) s line := by
  have text : (doc.keepJob job).text = doc.text := rfl
  rw [Security.isJustified, Security.isJustified, Workflow.source_ofDocument,
    Workflow.source_ofDocument]
  exact Document.hasMarker_congr text line s.justification.occurs

theorem jobs_keepJob : (Workflow.ofDocument (doc.keepJob job)).jobs =
    (Workflow.ofDocument doc).jobs.filter (·.id == job) := by
  rw [Workflow.ofDocument_keepJob]
  rfl

/-! ### Secrets -/

theorem SecretScope.jobs_prefix {path : List String} {id : String}
    (h : (SecretScope.ofSegments path).2 = some id) : ["jobs", id] <+: path := by
  revert h
  fun_cases SecretScope.ofSegments path
  all_goals simp +contextual

/-- A reference that belongs to a job stands in it and in no other. -/
theorem SecretRef.inJob_iff {root : Node} {r : SecretRef} (hr : r ∈ SecretRef.ofRoot root)
    {id : String} (h : r.jobId = some id) : inJob job r.path = true ↔ id = job := by
  obtain ⟨⟨p, expression, line⟩, hx, rfl⟩ := List.mem_map.mp hr
  obtain ⟨path, -, -, place, -⟩ := mem_secretsBelow hx
  change p = Pointer.descendant "" path at place
  subst place
  change (SecretScope.ofSegments (Pointer.segments (Pointer.descendant "" path))).2 = some id at h
  rw [Tree.Pointer.segments_descendant] at h
  obtain ⟨rest, rfl⟩ := SecretScope.jobs_prefix h
  refine (inJob_descendant job _).trans ?_
  simp [eq_comm]

/-- The job that is kept still uses secrets if it did. -/
theorem any_jobId_keepJob :
    (Workflow.ofDocument (doc.keepJob job)).secretRefs.any (·.jobId == some job) =
      (Workflow.ofDocument doc).secretRefs.any (·.jobId == some job) := by
  have within (doc : Document) : (Workflow.ofDocument doc).secretRefs.any (·.jobId == some job) =
      ((Workflow.ofDocument doc).secretRefs.filter (inJob job ·.path)).any
        (·.jobId == some job) := by
    rw [Bool.eq_iff_iff]
    simp only [List.any_eq_true, List.mem_filter, beq_iff_eq]
    constructor
    · rintro ⟨r, hr, own⟩
      exact ⟨r, ⟨hr, (SecretRef.inJob_iff (Workflow.mem_secretRefs hr) own).mpr rfl⟩, own⟩
    · rintro ⟨r, ⟨hr, -⟩, own⟩
      exact ⟨r, hr, own⟩
  rw [within, within, Workflow.secretRefs_keepJob]

/-- What a function makes of all elements and of some is the same, if what is asked for comes from
those and they give the same. -/
theorem filter_filterMap_filter {α β : Type} {f f' : α → Option β} {p : β → Bool} {q : α → Bool}
    {l : List α} (own : ∀ x ∈ l, q x = true → f' x = f x)
    (others : ∀ x ∈ l, q x = false → ∀ y ∈ f x, p y = false) :
    ((l.filter q).filterMap f').filter p = (l.filterMap f).filter p := by
  rw [List.filterMap_filter, List.filter_filterMap, List.filter_filterMap]
  refine List.filterMap_congr fun x hx => ?_
  cases kept : q x with
  | true => simp [own x hx kept]
  | false =>
    have silent : (f x).filter p = none := by
      simpa [Option.filter_eq_none_iff] using others x hx kept
    simp [silent]

theorem slimRunnerSecrets_isolated : Isolated doc job s Security.slimRunnerSecrets := by
  rw [Isolated, Security.slimRunnerSecrets, Security.slimRunnerSecrets, jobs_keepJob]
  refine filter_filterMap_filter (fun j hj same => ?_) fun j hj other d hd => ?_
  · have id : j.id = job := by simpa using same
    simp only [id, any_jobId_keepJob, isJustified_keepJob]
  · split at hd
    · cases hd
    next pointer label found =>
      split at hd
      · cases hd
      · cases hd
        have below := Job.isWithin_runnerLabels (List.mem_of_find?_eq_some found)
        exact (Workflow.outsideJob_of_within hj (by simpa using other) below).inJob_eq_false

/-- The job that a reference in the kept job belongs to has the environment that it had. -/
theorem envKey?_keepJob {r : SecretRef} (hr : r ∈ (Workflow.ofDocument doc).secretRefs)
    (within : inJob job r.path = true) :
    Security.envKey? (.ofDocument (doc.keepJob job)) r.jobId =
      Security.envKey? (.ofDocument doc) r.jobId := by
  cases own : r.jobId with
  | none => rfl
  | some id =>
    have same : id = job := (SecretRef.inJob_iff (Workflow.mem_secretRefs hr) own).mp within
    simp only [Security.envKey?, Workflow.job?, Option.bind_some, jobs_keepJob,
      ← List.filter_reverse, List.find?_filter, same, and_self, Bool.decide_eq_true]

theorem secretScope_isolated : Isolated doc job s Security.secretScope := by
  rw [Isolated, Security.secretScope, Security.secretScope]
  -- References outside the job say nothing of it, in the one workflow and in the other.
  refine (filter_filterMap_filter (q := (inJob job ·.path)) (fun _ _ _ => rfl) ?_).symm.trans ?_
  rotate_left
  rw [Workflow.secretRefs_keepJob]
  refine filter_filterMap_filter (fun r hr within => ?_) ?_
  · simp only [isJustified_keepJob, envKey?_keepJob hr within]
  all_goals
    intro r hr outside d hd
    split at hd
    · cases hd
      exact outside
    · split at hd
      · cases hd
      · cases hd
        exact outside
    · cases hd

/-! ### Nodes -/

theorem filter_filterMap_keepJob {f f' : String × Node → Option Draft}
    (scalars : ∀ p t, f' (p, .scalar t) = f (p, .scalar t))
    (silent : ∀ p n, n.scalar? = none → f' (p, n) = none ∧ f (p, n) = none)
    (place : ∀ x, ∀ d ∈ f x, d.location = x.1) :
    (((doc.keepJob job).root.walk "").filterMap f').filter (inJob job ·.location) =
      ((doc.root.walk "").filterMap f).filter (inJob job ·.location) := by
  obtain rfl : f' = f := by
    funext ⟨p, n⟩
    cases n with
    | scalar t => exact scalars p t
    | _ => rw [(silent p _ rfl).1, (silent p _ rfl).2]
  rw [List.filter_filterMap, List.filter_filterMap, List.filterMap_eq_flatMap_toList,
    List.filterMap_eq_flatMap_toList]
  refine Document.flatMap_keepJob ?_ (fun n => ?_) fun key rest n differ => ?_
  · cases doc.root with
    | scalar t => rfl
    | _ => rw [(silent "" _ rfl).1, (silent "" _ rfl).1]
  · cases n with
    | scalar t => rfl
    | _ => rw [(silent "/jobs" _ rfl).1, (silent "/jobs" _ rfl).1]
  · rw [Option.toList_eq_nil_iff, Option.filter_eq_none_iff]
    intro d hd within
    rw [place _ d hd] at within
    exact differ ((inJob_iff rest).mp within)

theorem blockScalarSingleLine_isolated : Isolated doc job s Style.blockScalarSingleLine := by
  have lines : (doc.keepJob job).lines = doc.lines := Document.lines_congr rfl
  have count : ∀ t, Style.sourceLineCount (.ofDocument (doc.keepJob job)) t =
      Style.sourceLineCount (.ofDocument doc) t := by
    intro t
    rw [Style.sourceLineCount, Style.sourceLineCount, Workflow.source_ofDocument,
      Workflow.source_ofDocument, lines]
  rw [Isolated, Style.blockScalarSingleLine, Style.blockScalarSingleLine,
    Workflow.source_ofDocument, Workflow.source_ofDocument]
  refine filter_filterMap_keepJob (fun p t => ?_) (fun p n none => ?_) fun x d hd => ?_
  · simp only [count]
  · cases n with
    | scalar t => cases none
    | _ => exact ⟨rfl, rfl⟩
  · obtain ⟨p, n⟩ := x
    cases n with
    | scalar t =>
      simp only at hd
      split at hd
      · cases hd
      · cases hd
        rfl
    | _ => cases hd

/-! ### Anchors -/

/-- The pointer is in the job, or the job is in it. -/
def nearJob (job p : String) : Bool := inJob job p || Pointer.isWithin p (Pointer.child "/jobs" job)

theorem nearJob_of_within {p q : String} (near : nearJob job p = true)
    (holds : Pointer.isWithin q p = true) : nearJob job q = true := by
  rw [nearJob, Bool.or_eq_true] at near ⊢
  rcases near with inside | around
  · exact (Tree.Pointer.isWithin_or_isWithin holds inside).symm
  · exact .inr (Tree.Pointer.isWithin_trans holds around)

theorem any_filter_nearJob {p : String} (near : nearJob job p = true) (passed : List String) :
    (passed.filter (nearJob job)).any (fun q => Text.startsWith p (q ++ "/")) =
      passed.any fun q => Text.startsWith p (q ++ "/") := by
  rw [List.any_filter]
  congr 1
  funext q
  cases covers : Text.startsWith p (q ++ "/") with
  | false => exact Bool.and_false _
  | true =>
    have holds : Pointer.isWithin q p = true := by simp [Pointer.isWithin, covers]
    rw [nearJob_of_within near holds, Bool.true_and]

/-- Of the anchors and aliases only those near the job bear on what is said of the job. -/
theorem filter_anchorsFrom (passed : List String) (l : List (String × Node)) :
    (Style.anchorsFrom passed l).filter (inJob job ·.location) =
      (Style.anchorsFrom (passed.filter (nearJob job)) (l.filter (nearJob job ·.1))).filter
        (inJob job ·.location) := by
  induction l generalizing passed with
  | nil => rfl
  | cons x rest ih =>
    obtain ⟨p, n⟩ := x
    -- A pointer that is not near the job gives no draft in the job, and as an alias it covers none
    -- of the pointers that are near; what covers one of these is itself near.
    cases near : nearJob job p with
    | false =>
      have outside : inJob job p = false := (Bool.or_eq_false_iff.mp near).1
      have kept : ∀ isAlias : Bool,
          (if isAlias then passed ++ [p] else passed).filter (nearJob job) =
            passed.filter (nearJob job) := by
        intro isAlias
        cases isAlias <;> simp [near]
      rw [List.filter_cons_of_neg (by simp [near]), Style.anchorsFrom]
      split
      · exact ih passed
      · split
        · exact ih passed
        · rw [List.filter_cons_of_neg (by simpa [Style.anchorDraft] using outside), ih, kept]
    | true =>
      have kept : ∀ isAlias : Bool,
          (if isAlias then passed ++ [p] else passed).filter (nearJob job) =
            if isAlias then passed.filter (nearJob job) ++ [p]
            else passed.filter (nearJob job) := by
        intro isAlias
        cases isAlias <;> simp [near]
      have head : ((p, n) :: rest).filter (nearJob job ·.1) =
          (p, n) :: rest.filter (nearJob job ·.1) := List.filter_cons_of_pos near
      rw [head, Style.anchorsFrom, Style.anchorsFrom, any_filter_nearJob near]
      split
      · exact ih passed
      · split
        · exact ih passed
        · rw [List.filter_cons, List.filter_cons, ih, kept]

/-- The rule about anchors sees of a node its pointer and how it is written. -/
theorem anchorsFrom_congr {passed : List String} {l l' : List (String × Node)}
    (same : l.map (fun x => (x.1, x.2.origin)) = l'.map fun x => (x.1, x.2.origin)) :
    Style.anchorsFrom passed l = Style.anchorsFrom passed l' := by
  induction l generalizing passed l' with
  | nil =>
    cases l' with
    | nil => rfl
    | cons y rest' => cases same
  | cons x rest ih =>
    cases l' with
    | nil => cases same
    | cons y rest' =>
      obtain ⟨p, n⟩ := x
      obtain ⟨p', n'⟩ := y
      simp only [List.map_cons, List.cons.injEq, Prod.mk.injEq] at same
      obtain ⟨⟨rfl, origin⟩, later⟩ := same
      simp only [Style.anchorsFrom, origin, ih later]

theorem anchorUsage_isolated : Isolated doc job s Style.anchorUsage := by
  have flat : ∀ l : List (String × Node), (l.filter (nearJob job ·.1)).map
      (fun x => (x.1, x.2.origin)) =
        l.flatMap fun x => if nearJob job x.1 then [(x.1, x.2.origin)] else [] := by
    intro l
    induction l with
    | nil => rfl
    | cons x rest ih => cases near : nearJob job x.1 <;> simp [near, ih]
  have far : ∀ key rest, key ≠ job →
      nearJob job (Pointer.descendant "/jobs" (key :: rest)) = false := by
    intro key rest differ
    rw [nearJob, Bool.or_eq_false_iff, Bool.eq_false_iff, Bool.eq_false_iff]
    refine ⟨fun inside => differ ((inJob_iff rest).mp inside), fun around => differ ?_⟩
    have segments :=
      (Tree.Pointer.isWithin_descendant ("jobs" :: key :: rest) ["jobs", job]).mp around
    exact (List.cons_prefix_cons.mp (List.cons_prefix_cons.mp segments).2).1
  have same : (((doc.keepJob job).root.walk "").filter (nearJob job ·.1)).map
      (fun x => (x.1, x.2.origin)) =
        ((doc.root.walk "").filter (nearJob job ·.1)).map fun x => (x.1, x.2.origin) := by
    rw [flat, flat]
    refine Document.flatMap_keepJob ?_ (fun n => ?_) fun key rest n differ => ?_
    · simp only [Node.origin_keepJob]
    · simp only [Node.origin_keepKey]
    · simp [far key rest differ]
  rw [Isolated, Style.anchorUsage, Style.anchorUsage, Workflow.source_ofDocument,
    Workflow.source_ofDocument, filter_anchorsFrom, anchorsFrom_congr same, ← filter_anchorsFrom]

/-! ### Parts -/

/-- What the check says of the job comes from the parts of the workflow and the text. -/
def FromParts (job : String) (s : Settings) (check : Workflow → Settings → List Draft) : Prop :=
  ∀ doc, (check (.ofDocument doc) s).filter (inJob job ·.location) =
    (check ((Workflow.ofDocument doc).parts (Workflow.ofDocument doc).jobs) s).filter
      (inJob job ·.location)

theorem jobTimeout_fromParts : FromParts job s Security.jobTimeout := by
  intro doc
  have excuse := isJustified_parts (Workflow.ofDocument doc) s (Workflow.ofDocument doc).jobs
  simp only [Security.jobTimeout, excuse]
  rfl

/-- What is said of the keys of the root is said of no job. -/
theorem keyOrder_fromParts : FromParts job s Style.keyOrder := by
  intro doc
  have no_root : Style.keyOrder
      ((Workflow.ofDocument doc).parts (Workflow.ofDocument doc).jobs) s = [] ++ _ := rfl
  rw [no_root, Style.keyOrder, List.filter_append, List.nil_append]
  refine List.append_left_eq_self.mpr (List.filter_eq_nil_iff.mpr fun d hd => ?_)
  rw [Bool.not_eq_true]
  split at hd
  · obtain ⟨⟨key, highest⟩, -, rfl⟩ := List.mem_map.mp hd
    exact inJob_eq_false_of_short job [key] (by simp)
  · cases hd

/-- The document with one job has the parts of the document, but for the other jobs. -/
theorem Workflow.parts_keepJob :
    (ofDocument (doc.keepJob job)).parts (ofDocument (doc.keepJob job)).jobs =
      (ofDocument doc).parts ((ofDocument doc).jobs.filter (·.id == job)) := by
  rw [ofDocument_keepJob, parts, parts, source_ofDocument]
  rfl

theorem sourceChecks_isolated_or : ∀ check ∈ sourceChecks,
    Isolated doc job s check ∨ FromParts job s check := by
  simp only [sourceChecks, List.forall_mem_cons]
  exact ⟨.inl slimRunnerSecrets_isolated, .inl secretScope_isolated, .inr jobTimeout_fromParts,
    .inl blockScalarSingleLine_isolated, .inl anchorUsage_isolated, .inr keyOrder_fromParts,
    List.forall_mem_nil _⟩

theorem Rule.isolated_of_parts {r : Rule} (hr : r ∈ Catalog.rules)
    (fine : (r.check (.ofDocument doc) s).fault = none)
    (parts : FromParts job s fun w s => (r.check w s).drafts) :
    Isolated doc job s fun w s => (r.check w s).drafts := by
  rw [Isolated, parts (doc.keepJob job), parts doc, Workflow.parts_keepJob]
  rcases Catalog.jobByJob_or (Workflow.ofDocument doc) s r hr fine with
    split | ⟨check, hcheck, draws⟩
  · exact split.filter_check (Catalog.rules_fit r hr) job
  · -- What is said of all jobs at once is said of none of them.
    have silent : ∀ jobs, (r.check ((Workflow.ofDocument doc).parts jobs) s).drafts.filter
        (inJob job ·.location) = [] := by
      intro jobs
      rw [draws, List.filter_eq_nil_iff]
      exact fun d hd => by simp [inJob_eq_false_of_whole jobs s check hcheck d hd]
    rw [silent, silent]

theorem Rule.isolated {r : Rule} (hr : r ∈ Catalog.rules)
    (fine : (r.check (.ofDocument doc) s).fault = none) :
    Isolated doc job s fun w s => (r.check w s).drafts := by
  rcases Catalog.readsParts_or r hr with reads | ⟨check, hcheck, draws⟩
  · refine r.isolated_of_parts hr fine fun doc => ?_
    have same : r.check ((Workflow.ofDocument doc).parts (Workflow.ofDocument doc).jobs) s =
        r.check (.ofDocument doc) s := reads ..
    simp only [same]
  · have drafts : (fun w s => (r.check w s).drafts) = check := by
      funext w s
      rw [draws]
    rcases sourceChecks_isolated_or check hcheck with alone | parts
    · rw [drafts]
      exact alone
    · exact r.isolated_of_parts hr fine (drafts ▸ parts)

/-! ### Findings -/

/-- The finding, wherever it comes in the order of the text. -/
def Finding.unordered (f : Finding) : Finding := { f with order := 0 }

/-- What a rule found in the job, wherever that comes in the order of the text. -/
def RuleResult.inJob (result : RuleResult) (job : String) : List Finding :=
  (result.findings.filter (FlowLint.inJob job ·.location)).map Finding.unordered

/-- The workflow makes no difference to how drafts are stamped, but for the order. -/
theorem Rule.inJob_evaluate (r : Rule) (w w' : Workflow) :
    (r.evaluate w s).inJob job =
      ((r.check w s).drafts.filter (FlowLint.inJob job ·.location)).map
        fun d => (r.stamp w' d).unordered := by
  rw [RuleResult.inJob, evaluate, List.filter_map, List.map_map]
  rfl

/-- On a document on which no rule breaks off, each rule finds at a job and below it the same, in
the same order, as it finds there in the document of the same text in which all other jobs are left
out. Only the places in the order of the text may differ. -/
theorem findings_isolated {doc : Document} {s : Settings}
    (fine : ∀ result ∈ Rule.evaluateAll Catalog.rules (.ofDocument doc) s, result.error = none)
    (job : String) :
    (Rule.evaluateAll Catalog.rules (.ofDocument (doc.keepJob job)) s).map
        (fun result => (result.ruleId, result.inJob job)) =
      (Rule.evaluateAll Catalog.rules (.ofDocument doc) s).map
        fun result => (result.ruleId, result.inJob job) := by
  simp only [Rule.evaluateAll, List.map_map]
  refine List.map_congr_left fun r hr => Prod.ext rfl ?_
  have no_fault : (r.check (.ofDocument doc) s).fault = none := by
    have no_error : (r.evaluate (.ofDocument doc) s).error = none :=
      fine _ (List.mem_map_of_mem hr)
    exact Option.map_eq_none_iff.mp no_error
  have drafts : Isolated doc job s fun w s => (r.check w s).drafts := r.isolated hr no_fault
  simp only [Function.comp_apply, r.inJob_evaluate _ (.ofDocument doc)]
  exact congrArg _ drafts

/-- Two jobs that share an environment; the name of the one begins with that of the other. -/
def sharedText : String :=
  "jobs:\n  a:\n    env: &e\n      T: $\x7b\x7b secrets.K \x7d\x7d\n" ++
    "  a/b:\n    runs-on: ubuntu-latest\n    env: *e\n"

/-- What is found in the second job is found there without the first. -/
theorem findings_isolated_shared : ∃ doc : Document,
    Tree.load sharedText = .ok doc ∧
    (∀ result ∈ Rule.evaluateAll Catalog.rules (.ofDocument doc) {}, result.error = none) ∧
    (Rule.evaluateAll Catalog.rules (.ofDocument doc) {}).flatMap
        (fun result => (result.inJob "a/b").map fun f => (f.ruleId, f.location)) =
      [("runner-pinning", "/jobs/a~1b/runs-on"), ("secret-scope", "/jobs/a~1b/env/T"),
        ("job-timeout", "/jobs/a~1b"), ("anchor-usage", "/jobs/a~1b/env")] ∧
    (Rule.evaluateAll Catalog.rules (.ofDocument (doc.keepJob "a/b")) {}).map
        (fun result => (result.ruleId, result.inJob "a/b")) =
      (Rule.evaluateAll Catalog.rules (.ofDocument doc) {}).map
        fun result => (result.ruleId, result.inJob "a/b") := by
  obtain ⟨doc, loaded, found⟩ := Tree.exists_of_toOption (show
    (Tree.load sharedText).toOption.map (fun doc =>
      ((Rule.evaluateAll Catalog.rules (.ofDocument doc) {}).all (·.error.isNone),
        (Rule.evaluateAll Catalog.rules (.ofDocument doc) {}).flatMap
          fun result => (result.inJob "a/b").map fun f => (f.ruleId, f.location))) =
      some (true, [("runner-pinning", "/jobs/a~1b/runs-on"), ("secret-scope", "/jobs/a~1b/env/T"),
        ("job-timeout", "/jobs/a~1b"), ("anchor-usage", "/jobs/a~1b/env")]) by
    decide +kernel)
  obtain ⟨no_errors, places⟩ := Prod.mk.inj found
  have fine : ∀ result ∈ Rule.evaluateAll Catalog.rules (.ofDocument doc) {},
      result.error = none := by
    intro result hr
    simpa using List.all_eq_true.mp no_errors result hr
  exact ⟨doc, loaded, fine, places, findings_isolated fine "a/b"⟩

end FlowLint
