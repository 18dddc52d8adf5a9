import FlowLint.Proofs.Faults
import FlowLint.Proofs.Independence
import FlowLint.Proofs.KeepJob

/-! Lists that are made job by job: each job adds its own elements, between some that are there
without any job (`JobByJob`). So are the drafts of all but three rules, as far as they come from the
parts of a workflow (`Catalog.jobByJob_or`). What such a list says of one job is then not touched by
leaving out the others (`JobByJob.filter_jobs`). -/

namespace FlowLint

open FlowLint.Tree (Document)

/-- The list for some of the jobs is made of what each job adds, one after the other, between
elements that are the same for all jobs. -/
def JobByJob {α : Type} (available : List Job) (g : List Job → List α) : Prop :=
  ∃ before each after, ∀ jobs ⊆ available, g jobs = before ++ jobs.flatMap each ++ after

namespace JobByJob

variable {α β : Type} {available : List Job} {g : List Job → List α}

theorem jobs : JobByJob available fun jobs => jobs := ⟨[], fun j => [j], [], fun _ _ => by simp⟩

/-! A check hands the whole workflow to what it does with each element; so this may mention the
jobs, but must be the same without them. -/

theorem const (l : List Job → List α) (same : ∀ jobs, l jobs = l []) : JobByJob available l :=
  ⟨l [], fun _ => [], [], fun jobs _ => by simp [same jobs]⟩

theorem flatMap (h : JobByJob available g) (f : List Job → α → List β)
    (same : ∀ jobs, f jobs = f []) : JobByJob available fun jobs => (g jobs).flatMap (f jobs) := by
  obtain ⟨before, each, after, split⟩ := h
  refine ⟨before.flatMap (f []), fun j => (each j).flatMap (f []), after.flatMap (f []),
    fun jobs some => ?_⟩
  simp only [split jobs some, same jobs, List.flatMap_append, List.flatMap_assoc]

theorem filterMap (h : JobByJob available g) (f : List Job → α → Option β)
    (same : ∀ jobs, f jobs = f []) :
    JobByJob available fun jobs => (g jobs).filterMap (f jobs) := by
  simpa only [List.filterMap_eq_flatMap_toList] using
    h.flatMap (fun jobs x => (f jobs x).toList) fun jobs => by rw [same jobs]

theorem map (h : JobByJob available g) (f : List Job → α → β) (same : ∀ jobs, f jobs = f []) :
    JobByJob available fun jobs => (g jobs).map (f jobs) := by
  simpa only [List.map_eq_flatMap] using
    h.flatMap (fun jobs x => [f jobs x]) fun jobs => by rw [same jobs]

theorem filter (h : JobByJob available g) (p : α → Bool) :
    JobByJob available fun jobs => (g jobs).filter p := by
  obtain ⟨before, each, after, split⟩ := h
  refine ⟨before.filter p, fun j => (each j).filter p, after.filter p, fun jobs some => ?_⟩
  simp only [split jobs some, List.filter_append, List.filter_flatMap]

theorem append_left (h : JobByJob available g) (l : List Job → List α)
    (same : ∀ jobs, l jobs = l []) : JobByJob available fun jobs => l jobs ++ g jobs := by
  obtain ⟨before, each, after, split⟩ := h
  exact ⟨l [] ++ before, each, after, fun jobs some => by simp [split jobs some, same jobs]⟩

theorem append_right (h : JobByJob available g) (l : List Job → List α)
    (same : ∀ jobs, l jobs = l []) : JobByJob available fun jobs => g jobs ++ l jobs := by
  obtain ⟨before, each, after, split⟩ := h
  exact ⟨before, each, after ++ l [], fun jobs some => by simp [split jobs some, same jobs]⟩

/-- Jobs may be left out that say nothing of what is asked for, if nothing of it is there without
jobs. -/
theorem filter_jobs (h : JobByJob available g) {p : α → Bool} {q : Job → Bool}
    (common : ∀ x ∈ g [], p x = false)
    (others : ∀ j ∈ available, q j = false → ∀ x ∈ g [j], p x = false) :
    (g (available.filter q)).filter p = (g available).filter p := by
  obtain ⟨before, each, after, split⟩ := h
  rw [split [] (List.nil_subset _)] at common
  have no_before : before.filter p = [] :=
    List.filter_eq_nil_iff.mpr fun x hx => by simp [common x (by simp [hx])]
  have no_after : after.filter p = [] :=
    List.filter_eq_nil_iff.mpr fun x hx => by simp [common x (by simp [hx])]
  have silent : ∀ j ∈ available, q j = false → (each j).filter p = [] := by
    intro j hj left_out
    refine List.filter_eq_nil_iff.mpr fun x hx => ?_
    have there : x ∈ g [j] := by
      rw [split [j] (by simpa using hj)]
      simp [hx]
    simp [others j hj left_out x there]
  rw [split _ List.filter_sublist.subset, split _ (List.Subset.refl _)]
  simp only [List.filter_append, List.filter_flatMap, no_before, no_after,
    flatMap_filter_of_silent silent]

end JobByJob

/-- The workflow with the given jobs, as if all its parts came from nowhere. The text stays. -/
def Workflow.parts (w : Workflow) (jobs : List Job) : Workflow :=
  { w with jobs }.withSource (.ofRoot .empty w.source.text) [] []

section Rules

variable (w : Workflow) (s : Settings) {available : List Job}

theorem Workflow.jobByJob_steps : JobByJob available fun jobs => (w.parts jobs).steps :=
  JobByJob.jobs.flatMap _ fun _ => rfl

theorem isJustified_parts (jobs : List Job) (line : Nat) :
    Security.isJustified (w.parts jobs) s line = Security.isJustified w s line := by
  have text : (w.parts jobs).source.text = w.source.text := rfl
  exact Document.hasMarker_congr text line s.justification.occurs

theorem writeAllPermissions_jobByJob :
    JobByJob available fun jobs => Security.writeAllPermissions (w.parts jobs) s := by
  have own : JobByJob available fun jobs => jobs.filterMap (·.permissions) :=
    JobByJob.jobs.filterMap _ fun _ => rfl
  have all := (own.append_left (fun _ => w.permissions.toList) fun _ => rfl).filter
    (·.level == some "write-all")
  refine all.map _ fun _ => ?_
  rfl

theorem jobTimeout_jobByJob :
    JobByJob available fun jobs => Security.jobTimeout (w.parts jobs) s := by
  refine JobByJob.jobs.filterMap _ fun jobs => ?_
  simp only [isJustified_parts w s]

theorem concurrencyGroup_jobByJob :
    JobByJob available fun jobs => Security.concurrencyGroup (w.parts jobs) s := by
  have own : JobByJob available fun jobs =>
      jobs.map fun j => (Tree.Pointer.child j.path "concurrency", j.concurrency) :=
    JobByJob.jobs.map _ fun _ => rfl
  have all : JobByJob available fun jobs => ("/concurrency", w.concurrency) ::
      jobs.map fun j => (Tree.Pointer.child j.path "concurrency", j.concurrency) :=
    own.append_left (fun _ => [("/concurrency", w.concurrency)]) fun _ => rfl
  simp only [Security.concurrencyGroup]
  exact all.filterMap _ fun _ => rfl

theorem untrustedCheckout_jobByJob :
    JobByJob available fun jobs => Security.untrustedCheckout (w.parts jobs) s := by
  have events : ∀ jobs, (w.parts jobs).events = w.events := fun _ => rfl
  simp only [Security.untrustedCheckout, events]
  split
  · exact .const _ fun _ => rfl
  · exact w.jobByJob_steps.filterMap _ fun _ => rfl

theorem artifactRetention_jobByJob (fine : (Practice.artifactRetention w s).fault = none) :
    JobByJob w.jobs fun jobs => (Practice.artifactRetention (w.parts jobs) s).drafts := by
  -- A step that makes the rule break off would also silence the jobs behind its own.
  have none_breaks : ∀ p ∈ w.steps, ¬ Practice.BreaksOff s.maxRetentionDays.value p.2 := by
    intro p hp breaks
    have failed := (Practice.isSome_fault_retentionsOf_iff s.maxRetentionDays.value w.steps).mpr
      ⟨p, hp, breaks⟩
    rw [show (Practice.retentionsOf _ w.steps).fault = none from fine] at failed
    cases failed
  have steps : JobByJob w.jobs fun jobs => (w.parts jobs).steps := w.jobByJob_steps
  obtain ⟨before, each, after, split⟩ := steps.filterMap
    (fun _ p => (Practice.retentionOf s.maxRetentionDays.value p.1 p.2).toOption.join) fun _ => rfl
  refine ⟨before, each, after, fun jobs some => ?_⟩
  rw [← split jobs some]
  refine Practice.drafts_retentionsOf_eq fun p hp => ?_
  obtain ⟨hj, hst⟩ := mem_steps.mp hp
  exact none_breaks p (mem_steps.mpr ⟨some hj, hst⟩)

theorem identifierCase_jobByJob :
    JobByJob available fun jobs => Style.identifierCase (w.parts jobs) s := by
  have own : JobByJob available fun jobs => jobs.flatMap Style.jobIdentifiers :=
    JobByJob.jobs.flatMap _ fun _ => rfl
  have all : JobByJob available fun jobs => Style.identifiers (w.parts jobs) :=
    own.append_right _ fun _ => rfl
  exact all.filterMap _ fun _ => rfl

/-- The rules that look at all jobs at once: each says one thing or nothing about the workflow. -/
def wholeChecks : List (Workflow → Settings → List Draft) :=
  [Security.concurrencyRequired, Security.noJobs, Practice.scheduleNotification]

/-- Of the parts of a workflow the rules speak job by job, but for those that look at all jobs at
once. -/
theorem Catalog.jobByJob_or : ∀ r ∈ rules, (r.check w s).fault = none →
    (JobByJob w.jobs fun jobs => (r.check (w.parts jobs) s).drafts) ∨
      ∃ check ∈ wholeChecks, r.Draws check := by
  have byJob {r : Rule} (h : JobByJob w.jobs fun jobs => (r.check (w.parts jobs) s).drafts)
      (_ : (r.check w s).fault = none) :
      (JobByJob w.jobs fun jobs => (r.check (w.parts jobs) s).drafts) ∨
        ∃ check ∈ wholeChecks, r.Draws check := .inl h
  have whole {id description : String} {category : Category} {severity : Severity}
      {check : Workflow → Settings → List Draft} (h : check ∈ wholeChecks)
      (_ : ((Rule.total id category severity description check).check w s).fault = none) :
      (JobByJob w.jobs fun jobs =>
        ((Rule.total id category severity description check).check (w.parts jobs) s).drafts) ∨
        ∃ check' ∈ wholeChecks,
          (Rule.total id category severity description check).Draws check' :=
    .inr ⟨check, h, fun _ _ => rfl⟩
  have jobs : JobByJob w.jobs fun jobs => jobs := .jobs
  have steps : JobByJob w.jobs fun jobs => (w.parts jobs).steps := w.jobByJob_steps
  have scripts : JobByJob w.jobs fun jobs => Practice.scripts (w.parts jobs) :=
    steps.filterMap _ fun _ => rfl
  simp only [rules, Security.rules, Practice.rules, Style.rules, List.forall_mem_append,
    List.forall_mem_cons]
  refine ⟨⟨⟨byJob (.const _ fun _ => rfl), byJob (writeAllPermissions_jobByJob w s),
    byJob (jobs.flatMap _ fun _ => rfl), byJob (jobs.filterMap _ fun _ => rfl),
    byJob (.const _ fun _ => rfl), byJob (steps.filterMap _ fun _ => rfl),
    byJob (jobTimeout_jobByJob w s), whole ?_, byJob (concurrencyGroup_jobByJob w s),
    byJob (steps.filterMap _ fun _ => rfl),
    byJob ((jobs.flatMap _ fun _ => rfl).filterMap _ fun _ => rfl),
    byJob (steps.filterMap _ fun _ => rfl), byJob (untrustedCheckout_jobByJob w s), whole ?_,
    List.forall_mem_nil _⟩,
    byJob (.const _ fun _ => rfl), whole ?_, byJob (jobs.flatMap _ fun _ => rfl),
    fun fine => .inl (artifactRetention_jobByJob w s fine),
    byJob (scripts.filterMap _ fun _ => rfl), byJob (scripts.filterMap _ fun _ => rfl),
    byJob (steps.filterMap _ fun _ => rfl), List.forall_mem_nil _⟩,
    byJob ((jobs.flatMap _ fun _ => rfl).filterMap _ fun _ => rfl),
    byJob (identifierCase_jobByJob w s), byJob (jobs.filterMap _ fun _ => rfl),
    byJob (.const _ fun _ => rfl), byJob (.const _ fun _ => rfl),
    byJob ((jobs.flatMap _ fun _ => rfl).filterMap _ fun _ => rfl),
    byJob ((jobs.flatMap _ fun _ => rfl).append_left _ fun _ => rfl),
    byJob (steps.filterMap _ fun _ => rfl), List.forall_mem_nil _⟩
  all_goals simp [wholeChecks]

end Rules

end FlowLint
