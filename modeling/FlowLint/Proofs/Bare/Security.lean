import FlowLint.Proofs.Bare.Parts
import FlowLint.Proofs.Location
import FlowLint.Rule.Security

/-! The rules about security on bare workflows. Each of them gives the same drafts for a workflow
and for the bare one; only `shellStrictMode` needs to see which scalars are blocks. -/

namespace FlowLint

open FlowLint.Tree

/-- The rule sees in a bare workflow what it sees in the workflow. -/
def Rule.SeesBare (blocks : Bool) (r : Rule) : Prop :=
  ∀ w s, r.check (w.bare blocks) s = r.check w s

namespace Rule.SeesBare

variable {blocks : Bool}

theorem total {id description : String} {category : Category} {severity : Severity}
    {check : Workflow → Settings → List Draft}
    (h : ∀ w s, check (w.bare blocks) s = check w s) :
    (Rule.total id category severity description check).SeesBare blocks :=
  fun w s => congrArg (fun drafts => ({ drafts } : Verdict)) (h w s)

/-- Documents with the same text and the same bare tree are the same to the rule. -/
theorem evaluate_eq {r : Rule} (h : r.SeesBare blocks) {doc doc' : Document}
    (same : doc.bare blocks = doc'.bare blocks) (s : Settings) :
    r.evaluate (.ofDocument doc) s = r.evaluate (.ofDocument doc') s := by
  have bare (d : Document) :
      r.evaluate (.ofDocument (d.bare blocks)) s = r.evaluate (.ofDocument d) s := by
    have stamp : r.stamp (.ofDocument (d.bare blocks)) = r.stamp (.ofDocument d) := by
      funext draft
      simp only [Rule.stamp, Workflow.source_ofDocument, Document.orderOf_bare]
    rw [Rule.evaluate, Rule.evaluate, stamp, Workflow.ofDocument_bare, h]
  rw [← bare doc, same, bare doc']

end Rule.SeesBare

namespace Security

variable {blocks : Bool} (w : Workflow) (s : Settings)

theorem topLevelPermissions_bare :
    topLevelPermissions (w.bare blocks) s = topLevelPermissions w s := rfl

theorem writeAllPermissions_bare :
    writeAllPermissions (w.bare blocks) s = writeAllPermissions w s := by
  simp only [writeAllPermissions, Workflow.permissions_bare, Workflow.jobs_bare,
    List.filterMap_map, Function.comp_def, Job.permissions_bare]

theorem runnerPinning_bare : runnerPinning (w.bare blocks) s = runnerPinning w s := by
  simp only [runnerPinning, Workflow.jobs_bare, List.flatMap_map, Job.runnerLabels_bare,
    Job.label_bare]

@[simp] theorem isJustified_bare (line : Nat) :
    isJustified (w.bare blocks) s line = isJustified w s line :=
  Document.hasMarker_bare _ _ _

theorem slimRunnerSecrets_bare :
    slimRunnerSecrets (w.bare blocks) s = slimRunnerSecrets w s := by
  simp only [slimRunnerSecrets, isJustified_bare, Workflow.jobs_bare, Workflow.secretRefs_bare,
    List.filterMap_map, Function.comp_def, Job.runnerLabels_bare, Job.label_bare, Job.id_bare,
    Job.keyLine_bare]

theorem envKey?_bare (jobId : Option String) :
    envKey? (w.bare blocks) jobId = (envKey? w jobId).map Scalar.bareKey := by
  cases jobId with
  | none => rfl
  | some id =>
    simp only [envKey?, Workflow.job?, Workflow.jobs_bare, Option.bind_some, ← List.map_reverse,
      List.find?_map, Function.comp_def, Job.id_bare]
    cases w.jobs.reverse.find? (·.id == id) with
    | none => rfl
    | some j => exact Mapping.keyNode?_bare _ _

theorem secretScope_bare : secretScope (w.bare blocks) s = secretScope w s := by
  have key (jobId : Option String) :
      (envKey? (w.bare blocks) jobId).any (fun key => isJustified w s key.origin.line) =
        (envKey? w jobId).any fun key => isJustified w s key.origin.line := by
    rw [envKey?_bare]
    cases envKey? w jobId <;> rfl
  simp only [secretScope, Workflow.secretRefs_bare, isJustified_bare, key]

theorem hasOtherShell_bare (st : Step) : hasOtherShell (st.bare blocks) = hasOtherShell st := by
  simp only [hasOtherShell, Step.shell_bare]
  cases st.shell <;> rfl

theorem shellStrictMode_bare : shellStrictMode (w.bare true) s = shellStrictMode w s := by
  simp only [shellStrictMode, Workflow.steps_bare, List.filterMap_map]
  congr 1
  funext x
  simp only [Function.comp_apply, Step.run_bare, hasOtherShell_bare, Step.label_bare,
    Step.path_bare]
  cases x.2.run with
  | none => rfl
  | some run =>
    simp only [Option.map_some, Scalar.isBlock_bare, Scalar.value_bare]
    rfl

theorem jobTimeout_bare : jobTimeout (w.bare blocks) s = jobTimeout w s := by
  simp only [jobTimeout, isJustified_bare, Workflow.jobs_bare, List.filterMap_map]
  congr 1
  funext j
  simp only [Function.comp_apply, Job.isCall_bare, Job.timeoutNode_bare, Job.label_bare,
    Job.path_bare]
  cases j.timeoutNode with
  | none => rfl
  | some node =>
    simp only [Option.map_some, Scalar.asInt?_bare]
    rw [Scalar.line_bare]

theorem concurrencyRequired_bare :
    concurrencyRequired (w.bare blocks) s = concurrencyRequired w s := by
  simp [concurrencyRequired, Function.comp_def]

theorem groupOf_bare (pointer : String) (block : Node) :
    groupOf pointer (block.bare blocks) = groupOf pointer block := by
  have text := @text?_bare blocks (some block)
  cases block with
  | mapping o entries =>
    have group := @Mapping.get?_bare blocks ⟨o, entries⟩ "group"
    simp only [Mapping.bare] at group
    simp only [groupOf, Node.bare, bareEntries_eq, group, text?_bare]
  | scalar s => exact congrArg (Prod.mk pointer) text
  | sequence o items => exact congrArg (Prod.mk pointer) text

theorem concurrencyGroup_bare : concurrencyGroup (w.bare blocks) s = concurrencyGroup w s := by
  have sites : (("/concurrency", (w.bare blocks).concurrency) ::
      (w.bare blocks).jobs.map fun j => (Pointer.child j.path "concurrency", j.concurrency)) =
        (("/concurrency", w.concurrency) ::
          w.jobs.map fun j => (Pointer.child j.path "concurrency", j.concurrency)).map
            fun x => (x.1, x.2.map (Node.bare blocks)) := by
    simp [Function.comp_def]
  simp only [concurrencyGroup, sites, List.filterMap_map]
  congr 1
  funext x
  obtain ⟨pointer, block⟩ := x
  cases block with
  | none => rfl
  | some block => simp only [Function.comp_apply, Option.map_some, Option.bind_some, groupOf_bare]

theorem destructiveCommand_bare :
    destructiveCommand (w.bare blocks) s = destructiveCommand w s := by
  simp only [destructiveCommand, Workflow.steps_bare, List.filterMap_map]
  congr 1
  funext x
  simp only [Function.comp_apply, Step.run_bare, Step.continueOnError_bare, Step.label_bare,
    Step.path_bare]
  cases x.2.run <;> rfl

theorem usesOf_bare (j : Job) : usesOf (j.bare blocks) = usesOf j := by
  simp [usesOf, List.filterMap_map, Function.comp_def]

theorem actionRefPinning_bare : actionRefPinning (w.bare blocks) s = actionRefPinning w s := by
  simp only [actionRefPinning, Workflow.jobs_bare, List.flatMap_map, usesOf_bare]

theorem scriptInjection_bare : scriptInjection (w.bare blocks) s = scriptInjection w s := by
  simp only [scriptInjection, Workflow.steps_bare, List.filterMap_map]
  congr 1
  funext x
  simp only [Function.comp_apply, Step.run_bare, Step.label_bare, Step.path_bare]
  cases x.2.run <;> rfl

theorem untrustedCheckout_bare : untrustedCheckout (w.bare blocks) s = untrustedCheckout w s := by
  simp only [untrustedCheckout, Workflow.events_bare, Workflow.steps_bare, List.filterMap_map,
    Function.comp_def, Step.input_bare, text?_bare, Step.action_bare, Step.label_bare,
    Step.path_bare]

theorem noJobs_bare : noJobs (w.bare blocks) s = noJobs w s := by
  simp only [noJobs, Workflow.jobs_bare, List.isEmpty_map]

/-- Each rule about security sees in a bare workflow what it sees in the workflow, if the bare one
keeps the blocks or the rule does not ask for them. -/
theorem rules_seeBare : ∀ r ∈ rules, blocks = true ∨ r.id ≠ "shell-strict-mode" →
    r.SeesBare blocks := by
  have strict (h : blocks = true ∨ "shell-strict-mode" ≠ "shell-strict-mode") (w : Workflow)
      (s : Settings) : shellStrictMode (w.bare blocks) s = shellStrictMode w s := by
    rcases h with rfl | h
    · exact shellStrictMode_bare w s
    · exact absurd rfl h
  simp only [rules, List.forall_mem_cons]
  exact ⟨fun _ => .total topLevelPermissions_bare, fun _ => .total writeAllPermissions_bare,
    fun _ => .total runnerPinning_bare, fun _ => .total slimRunnerSecrets_bare,
    fun _ => .total secretScope_bare, fun h => .total (strict h), fun _ => .total jobTimeout_bare,
    fun _ => .total concurrencyRequired_bare, fun _ => .total concurrencyGroup_bare,
    fun _ => .total destructiveCommand_bare, fun _ => .total actionRefPinning_bare,
    fun _ => .total scriptInjection_bare, fun _ => .total untrustedCheckout_bare,
    fun _ => .total noJobs_bare, fun _ h => nomatch h⟩

end Security

end FlowLint
