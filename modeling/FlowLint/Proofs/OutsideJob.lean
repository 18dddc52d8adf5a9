import FlowLint.Proofs.JobByJob

/-! Places outside a job. What a job shows lies within its pointer, what a trigger shows within that
of the triggers; so nothing that a workflow shows without a job lies in that job, nor does a child
of it (`Workflow.Place.inJob_eq_false`). A rule that speaks job by job therefore says of one job the
same without the others (`JobByJob.filter_check`). -/

namespace FlowLint

open FlowLint.Tree (Node Scalar Mapping Document Pointer.child Pointer.item Pointer.descendant
  Pointer.isWithin)

/-- Neither the root nor a key of it lies in a job. -/
theorem inJob_eq_false_of_short (job : String) (path : List String) (short : path.length < 2) :
    inJob job (Pointer.descendant "" path) = false := by
  rw [Bool.eq_false_iff]
  intro within
  have longer := ((inJob_descendant job path).mp within).length_le
  simp only [List.length_cons, List.length_nil] at longer
  omega

/-- The pointer lies within another one that is neither in the job nor holds it. -/
def OutsideJob (job p : String) : Prop :=
  ∃ base, Pointer.isWithin base p = true ∧
    Pointer.isWithin base (Pointer.child "/jobs" job) = false ∧ inJob job base = false

namespace OutsideJob

variable {job p p' : String}

theorem within (h : OutsideJob job p) (lower : Pointer.isWithin p p' = true) :
    OutsideJob job p' := by
  obtain ⟨base, holds, apart⟩ := h
  exact ⟨base, Tree.Pointer.isWithin_trans holds lower, apart⟩

theorem inJob_eq_false (h : OutsideJob job p) : inJob job p = false := by
  obtain ⟨base, holds, above, below⟩ := h
  rw [Bool.eq_false_iff]
  intro within
  -- Of the job and the other pointer, which both hold `p`, one would hold the other.
  rcases Tree.Pointer.isWithin_or_isWithin holds within with upper | lower
  · simp [above] at upper
  · simp [inJob, lower] at below

theorem rootPart (key : String) (other : key ≠ "jobs")
    (h : Pointer.isWithin (Pointer.child "" key) p = true) : OutsideJob job p := by
  have above := Tree.Pointer.isWithin_descendant [key] ["jobs", job]
  refine ⟨_, h, Bool.eq_false_iff.mpr fun within => ?_,
    inJob_eq_false_of_short job [key] (by simp)⟩
  exact other (List.cons_prefix_cons.mp (above.mp within)).1

theorem otherJob {id : String} (other : id ≠ job)
    (h : Pointer.isWithin (Pointer.child "/jobs" id) p = true) : OutsideJob job p := by
  refine ⟨_, h, Bool.eq_false_iff.mpr fun within => ?_, Bool.eq_false_iff.mpr fun within => ?_⟩
  · exact other ((inJob_iff []).mp within).symm
  · exact other ((inJob_iff []).mp within)

end OutsideJob

/-! ### What parts show -/

theorem isWithin_pointedScalars {node : Option Node} {path : String} {x : String × Scalar}
    (h : x ∈ pointedScalars node path) : Pointer.isWithin path x.1 = true := by
  unfold pointedScalars at h
  split at h
  · obtain ⟨i, -, place⟩ := mem_itemScalars h
    rw [place]
    exact Tree.Pointer.isWithin_child path _
  · obtain ⟨s, -, rfl⟩ := Option.map_eq_some_iff.mp (Option.mem_toList.mp h)
    exact Tree.Pointer.isWithin_self path

theorem Trigger.isWithin_of_mem {node : Option Node} {t : Trigger} (h : t ∈ Trigger.ofNode node) :
    Pointer.isWithin "/on" t.path = true := by
  unfold Trigger.ofNode at h
  split at h
  · obtain ⟨e, -, rfl⟩ := List.mem_map.mp h
    exact Tree.Pointer.isWithin_child _ _
  · obtain ⟨x, hx, rfl⟩ := List.mem_map.mp h
    exact isWithin_pointedScalars hx

namespace Job

variable {j : Job}

theorem isWithin_runsOn {x : String × Scalar} (h : x ∈ j.runsOn) :
    Pointer.isWithin j.path x.1 = true := by
  have below := Tree.Pointer.isWithin_child j.path "runs-on"
  unfold runsOn at h
  split at h
  · have labels := Tree.Pointer.isWithin_child (Pointer.child j.path "runs-on") "labels"
    exact Tree.Pointer.isWithin_trans (Tree.Pointer.isWithin_trans below labels)
      (isWithin_pointedScalars h)
  · exact Tree.Pointer.isWithin_trans below (isWithin_pointedScalars h)

theorem isWithin_runnerLabels {label : String × String} (h : label ∈ j.runnerLabels) :
    Pointer.isWithin j.path label.1 = true := by
  obtain ⟨⟨pointer, s⟩, hs, h⟩ := List.mem_flatMap.mp h
  simp only at h
  split at h
  next name _ _ _ =>
    obtain ⟨x, hx, rfl⟩ := List.mem_map.mp h
    have below := Tree.Pointer.isWithin_descendant_self j.path ["strategy", "matrix", name]
    exact Tree.Pointer.isWithin_trans below (isWithin_pointedScalars hx)
  · rw [List.mem_singleton.mp h]
    exact isWithin_runsOn hs

theorem isWithin_steps {st : Step} (h : st ∈ j.steps) : Pointer.isWithin j.path st.path = true := by
  have below := Tree.Pointer.isWithin_child j.path "steps"
  unfold steps at h
  split at h
  · obtain ⟨i, -, place⟩ := mem_stepsFrom h
    rw [place]
    exact Tree.Pointer.isWithin_trans below (Tree.Pointer.isWithin_child _ _)
  · cases h

end Job

/-! ### What a workflow shows without a job -/

namespace Workflow

variable {doc : Document} {job p : String} {jobs : List Job}

theorem job_path {j : Job} (hj : j ∈ (ofDocument doc).jobs) :
    j.path = Pointer.child "/jobs" j.id := by
  rcases ofDocument_eq doc with empty | ⟨root, -, -, -, -, jobs, -⟩
  · rw [empty] at hj
    cases hj
  · rw [jobs] at hj
    obtain ⟨_, _, -, -, path⟩ := Job.mem_ofNode hj
    exact path

theorem outsideJob_of_within {j : Job} (hj : j ∈ (ofDocument doc).jobs) (other : j.id ≠ job)
    (below : Pointer.isWithin j.path p = true) : OutsideJob job p := by
  rw [job_path hj] at below
  exact .otherJob other below

theorem trigger_outsideJob {t : Trigger} (ht : t ∈ (ofDocument doc).triggers) :
    OutsideJob job t.path := by
  rcases ofDocument_eq doc with empty | ⟨root, -, triggers, -⟩
  · rw [empty] at ht
    cases ht
  · rw [triggers] at ht
    exact .rootPart "on" (by decide) (Trigger.isWithin_of_mem ht)

theorem permissions_outsideJob {permissions : Permissions}
    (h : (ofDocument doc).permissions = some permissions) : OutsideJob job permissions.path := by
  rcases ofDocument_eq doc with empty | ⟨root, -, -, found, -⟩
  · rw [empty] at h
    cases h
  · rw [found] at h
    rw [(Permissions.path_of_ofNode h).1]
    exact .rootPart "permissions" (by decide) (Tree.Pointer.isWithin_self _)

/-- What the parts show is the root, or lies outside a job that is none of theirs. -/
theorem Shows.outsideJob (among : jobs ⊆ (ofDocument doc).jobs) (others : ∀ j ∈ jobs, j.id ≠ job)
    (h : ((ofDocument doc).parts jobs).Shows p) : p = "" ∨ OutsideJob job p := by
  have inner {j : Job} {p : String} (hj : j ∈ jobs) (below : Pointer.isWithin j.path p = true) :
      OutsideJob job p := outsideJob_of_within (among hj) (others j hj) below
  have step {j : Job} {st : Step} (h : (j, st) ∈ ((ofDocument doc).parts jobs).steps) :
      OutsideJob job st.path := by
    obtain ⟨hj, hst⟩ := mem_steps.mp h
    exact inner hj (Job.isWithin_steps hst)
  cases h with
  | root => exact .inl rfl
  | node h => exact .inl (List.mem_singleton.mp h)
  | concurrency _ =>
    exact .inr (.rootPart "concurrency" (by decide) (Tree.Pointer.isWithin_self _))
  | permissions h => exact .inr (permissions_outsideJob h)
  | trigger h => exact .inr (trigger_outsideJob h)
  | filter h _ _ => exact .inr ((trigger_outsideJob h).within (Tree.Pointer.isWithin_child _ _))
  | job h => exact .inr (inner h (Tree.Pointer.isWithin_self _))
  | jobPart h _ => exact .inr (inner h (Tree.Pointer.isWithin_child _ _))
  | label h hlabel => exact .inr (inner h (Job.isWithin_runnerLabels hlabel))
  | step h => exact .inr (step h)
  | stepPart h _ => exact .inr ((step h).within (Tree.Pointer.isWithin_child _ _))
  | secret h => cases h

theorem Place.inJob_eq_false (among : jobs ⊆ (ofDocument doc).jobs)
    (others : ∀ j ∈ jobs, j.id ≠ job) (h : ((ofDocument doc).parts jobs).Place p) :
    inJob job p = false := by
  cases h with
  | shown h =>
    rcases h.outsideJob among others with rfl | outside
    · exact inJob_eq_false_of_short job [] (by simp)
    · exact outside.inJob_eq_false
  | child key h _ =>
    rcases h.outsideJob among others with rfl | outside
    · exact inJob_eq_false_of_short job [key] (by simp)
    · exact (outside.within (Tree.Pointer.isWithin_child _ key)).inJob_eq_false

end Workflow

/-- A rule that speaks job by job says of a job the same without the others. -/
theorem JobByJob.filter_check {doc : Document} {r : Rule} (fits : r.Fits) {s : Settings}
    (h : JobByJob (Workflow.ofDocument doc).jobs fun jobs =>
      (r.check ((Workflow.ofDocument doc).parts jobs) s).drafts) (job : String) :
    (r.check ((Workflow.ofDocument doc).parts
        ((Workflow.ofDocument doc).jobs.filter (·.id == job))) s).drafts.filter
          (inJob job ·.location) =
      (r.check ((Workflow.ofDocument doc).parts (Workflow.ofDocument doc).jobs) s).drafts.filter
        (inJob job ·.location) := by
  refine h.filter_jobs (fun d hd => ?_) fun j hj other d hd => ?_
  · exact (fits _ s d hd).place.inJob_eq_false (List.nil_subset _) (List.forall_mem_nil _)
  · refine (fits _ s d hd).place.inJob_eq_false (by simpa using hj) fun i hi => ?_
    rw [List.mem_singleton.mp hi]
    simpa using other

/-- What is said about all jobs at once is said elsewhere. -/
theorem inJob_eq_false_of_whole {doc : Document} {job : String} (jobs : List Job) (s : Settings) :
    ∀ check ∈ wholeChecks, ∀ d ∈ check ((Workflow.ofDocument doc).parts jobs) s,
      inJob job d.location = false := by
  simp only [wholeChecks, List.forall_mem_cons]
  refine ⟨fun d hd => ?_, fun d hd => ?_, fun d hd => ?_, List.forall_mem_nil _⟩
  · unfold Security.concurrencyRequired at hd
    split at hd
    · cases hd
    · rw [List.mem_singleton.mp hd]
      exact inJob_eq_false_of_short job ["concurrency"] (by simp)
  · unfold Security.noJobs at hd
    split at hd
    · cases hd
    · rw [List.mem_singleton.mp hd]
      exact inJob_eq_false_of_short job ["jobs"] (by simp)
  · unfold Practice.scheduleNotification at hd
    split at hd
    · cases hd
    next t ht =>
      split at hd
      · cases hd
      · rw [List.mem_singleton.mp hd]
        exact (Workflow.trigger_outsideJob (Workflow.trigger?_mem ht)).inJob_eq_false

end FlowLint
