import FlowLint.Proofs.Bare
import FlowLint.Workflow

/-! The parts of a bare workflow. Each way to look up a part leads in a bare tree to the bare part,
and gives the same texts; so the workflow of a bare document is the bare workflow of the document
(`Workflow.ofDocument_bare`). -/

namespace FlowLint

open FlowLint.Tree

variable {blocks : Bool}

@[simp] theorem scalarAt_bare (m : Mapping) (key : String) :
    scalarAt (m.bare blocks) key = (scalarAt m key).map (Scalar.bare blocks) := by
  simp [scalarAt]

@[simp] theorem mappingAt_bare (m : Mapping) (key : String) :
    mappingAt (m.bare blocks) key = (mappingAt m key).map (Mapping.bare blocks) := by
  cases h : m.get? key <;> simp [mappingAt, h]

@[simp] theorem extraKeys_bare (m : Mapping) (known : List String) :
    extraKeys (m.bare blocks) known = extraKeys m known := by
  simp [extraKeys]

theorem itemScalars_bare (path : String) (first : Nat) (items : List Node) :
    itemScalars path first (items.map (Node.bare blocks)) =
      (itemScalars path first items).map fun x => (x.1, x.2.bare blocks) := by
  induction items generalizing first with
  | nil => rfl
  | cons n rest ih =>
    have head := @valued?_bare blocks (some n)
    rw [List.map_cons, itemScalars, itemScalars, ih, ← Option.map_some, head]
    cases valued? (some n) <;> rfl

@[simp] theorem pointedScalars_bare (n : Option Node) (path : String) :
    pointedScalars (n.map (Node.bare blocks)) path =
      (pointedScalars n path).map fun x => (x.1, x.2.bare blocks) := by
  have single : ((valued? (n.map (Node.bare blocks))).map (path, ·)).toList =
      ((valued? n).map (path, ·)).toList.map fun x => (x.1, x.2.bare blocks) := by
    rw [valued?_bare]
    cases valued? n <;> rfl
  rcases n with _ | n
  · exact single
  · cases n with
    | sequence o items =>
      rw [Option.map_some, Node.bare, bareItems_eq]
      exact itemScalars_bare path 0 items
    | scalar s => exact single
    | mapping o entries => exact single

def Trigger.bare (blocks : Bool) (t : Trigger) : Trigger :=
  { t with config := t.config.map (Node.bare blocks) }

theorem Trigger.ofNode_bare (n : Option Node) :
    Trigger.ofNode (n.map (Node.bare blocks)) = (Trigger.ofNode n).map (Trigger.bare blocks) := by
  have scalars : (pointedScalars (n.map (Node.bare blocks)) "/on").map
      (fun x => ({ event := x.2.value, path := x.1 } : Trigger)) =
        ((pointedScalars n "/on").map fun x => { event := x.2.value, path := x.1 }).map
          (Trigger.bare blocks) := by
    simp [Trigger.bare, Function.comp_def]
  rcases n with _ | n
  · exact scalars
  · cases n with
    | mapping o entries =>
      simp [Trigger.ofNode, Node.bare, bareEntries_eq, Trigger.bare, Function.comp_def]
    | scalar s => exact scalars
    | sequence o items => exact scalars

@[simp] theorem Permissions.ofNode_bare (n : Option Node) (path : String) :
    Permissions.ofNode (n.map (Node.bare blocks)) path = Permissions.ofNode n path := by
  rcases n with _ | n
  · rfl
  · have level := @text?_bare blocks (some n)
    cases n with
    | mapping o entries =>
      simp [Permissions.ofNode, Node.bare, bareEntries_eq, List.filterMap_map, Function.comp_def]
    | scalar s => simpa [Permissions.ofNode, Node.bare] using level
    | sequence o items => simpa [Permissions.ofNode, Node.bare] using level

/-! ### Steps -/

def Step.bare (blocks : Bool) (st : Step) : Step := { st with node := st.node.bare blocks }

namespace Step

variable (st : Step)

@[simp] theorem path_bare : (st.bare blocks).path = st.path := rfl

@[simp] theorem uses_bare : (st.bare blocks).uses = st.uses.map (Scalar.bare blocks) :=
  scalarAt_bare _ _

@[simp] theorem run_bare : (st.bare blocks).run = st.run.map (Scalar.bare blocks) :=
  scalarAt_bare _ _

@[simp] theorem shell_bare : (st.bare blocks).shell = st.shell.map (Scalar.bare blocks) :=
  scalarAt_bare _ _

@[simp] theorem continueOnError_bare :
    (st.bare blocks).continueOnError = st.continueOnError := by
  simp only [continueOnError, bare, scalarAt_bare]
  cases scalarAt st.node "continue-on-error" <;> rfl

@[simp] theorem action_bare : (st.bare blocks).action = st.action := by
  simp only [action, uses_bare]
  cases st.uses <;> rfl

@[simp] theorem input_bare (key : String) :
    (st.bare blocks).input key = (st.input key).map (Node.bare blocks) := by
  simp only [input, inputs, bare, mappingAt_bare]
  cases mappingAt st.node "with" <;> simp

end Step

/-! ### Jobs -/

def Job.bare (blocks : Bool) (j : Job) : Job := ⟨j.key.bareKey, j.path, j.node.bare blocks⟩

namespace Job

variable (j : Job)

@[simp] theorem path_bare : (j.bare blocks).path = j.path := rfl

@[simp] theorem id_bare : (j.bare blocks).id = j.id := rfl

@[simp] theorem node_bare : (j.bare blocks).node = j.node.bare blocks := rfl

@[simp] theorem keyLine_bare : (j.bare blocks).key.origin.line = j.key.origin.line := rfl

@[simp] theorem timeoutNode_bare :
    (j.bare blocks).timeoutNode = j.timeoutNode.map (Scalar.bare blocks) := scalarAt_bare _ _

@[simp] theorem uses_bare : (j.bare blocks).uses = j.uses.map (Scalar.bare blocks) :=
  scalarAt_bare _ _

@[simp] theorem isCall_bare : (j.bare blocks).isCall = j.isCall := by simp [isCall]

@[simp] theorem label_bare : (j.bare blocks).label = j.label := by
  simp [label, name, Function.comp_def]

@[simp] theorem permissions_bare : (j.bare blocks).permissions = j.permissions := by
  simp [permissions]

@[simp] theorem concurrency_bare :
    (j.bare blocks).concurrency = j.concurrency.map (Node.bare blocks) := Mapping.get?_bare _ _

theorem matrix_bare : (j.bare blocks).matrix = j.matrix.map (Node.bare blocks) := by
  simp only [matrix, node_bare, mappingAt_bare]
  cases mappingAt j.node "strategy" <;> simp

theorem runsOn_bare :
    (j.bare blocks).runsOn = j.runsOn.map fun x => (x.1, x.2.bare blocks) := by
  have direct := @pointedScalars_bare blocks (j.node.get? "runs-on")
    (Pointer.child j.path "runs-on")
  simp only [runsOn, node_bare, path_bare, Mapping.get?_bare]
  rcases h : j.node.get? "runs-on" with _ | n
  · rfl
  · rw [h] at direct
    cases n with
    | mapping o entries =>
      have labels := @Mapping.get?_bare blocks ⟨o, entries⟩ "labels"
      simp only [Option.map_some, Node.bare, bareEntries_eq]
      rw [← pointedScalars_bare, ← labels]
      rfl
    | scalar s => exact direct
    | sequence o items => exact direct

@[simp] theorem runnerLabels_bare : (j.bare blocks).runnerLabels = j.runnerLabels := by
  have matrix : (j.matrix.map (Node.bare blocks)).bind Node.mapping? =
      (j.matrix.bind Node.mapping?).map (Mapping.bare blocks) := by
    cases j.matrix <;> simp
  simp only [runnerLabels, runsOn_bare, List.flatMap_map, matrix_bare, Scalar.value_bare,
    path_bare, matrix]
  congr 1
  funext x
  cases Expression.matrixVariable? x.2.value with
  | none => rfl
  | some name =>
    cases j.matrix.bind Node.mapping? with
    | none => rfl
    | some matrix => simp [Function.comp_def]

theorem stepsFrom_bare (path : String) (first : Nat) (items : List Node) :
    stepsFrom path first (items.map (Node.bare blocks)) =
      (stepsFrom path first items).map (Step.bare blocks) := by
  induction items generalizing first with
  | nil => rfl
  | cons n rest ih =>
    rw [List.map_cons, stepsFrom, stepsFrom, ih, Node.mapping?_bare]
    cases n.mapping? <;> rfl

@[simp] theorem steps_bare : (j.bare blocks).steps = j.steps.map (Step.bare blocks) := by
  simp only [steps, node_bare, path_bare, Mapping.get?_bare]
  rcases j.node.get? "steps" with _ | n
  · rfl
  · cases n with
    | sequence o items =>
      simp only [Option.map_some, Node.bare, bareItems_eq]
      exact stepsFrom_bare _ 0 items
    | _ => rfl

theorem ofNode_bare (n : Option Node) :
    ofNode (n.map (Node.bare blocks)) = (ofNode n).map (Job.bare blocks) := by
  rcases n with _ | n
  · rfl
  · cases n with
    | mapping o entries =>
      simp only [ofNode, Option.map_some, Node.bare, bareEntries_eq, List.filterMap_map,
        List.map_filterMap]
      refine List.filterMap_congr fun e _ => ?_
      simp [bare, Function.comp_def]
    | _ => rfl

end Job

@[simp] theorem Step.label_bare (st : Step) (j : Job) :
    (st.bare blocks).label (j.bare blocks) = st.label j := by
  have name : (st.bare blocks).name = st.name.map (Scalar.bare blocks) := scalarAt_bare _ _
  simp only [Step.label, name, Job.id_bare]
  cases st.name <;> rfl

/-! ### Secrets -/

@[simp] theorem secretsBelow_bare (n : Node) (p : String) :
    secretsBelow (n.bare blocks) p = secretsBelow n p := by
  rw [secretsBelow, secretsBelow, Node.walk_bare, List.flatMap_map]
  congr 1
  funext x
  obtain ⟨p, n⟩ := x
  cases n <;> rfl

theorem SecretRef.ofRoot_bare (n : Node) :
    SecretRef.ofRoot (n.bare blocks) = SecretRef.ofRoot n := by
  rw [SecretRef.ofRoot, SecretRef.ofRoot, secretsBelow_bare]

/-! ### Workflows -/

def Workflow.bare (blocks : Bool) (w : Workflow) : Workflow where
  source := w.source.bare blocks
  name := w.name.map (Scalar.bare blocks)
  triggers := w.triggers.map (Trigger.bare blocks)
  permissions := w.permissions
  concurrency := w.concurrency.map (Node.bare blocks)
  env := w.env.map (Mapping.bare blocks)
  jobs := w.jobs.map (Job.bare blocks)
  extras := w.extras
  secretRefs := w.secretRefs

namespace Workflow

/-- The workflow of a bare document is the bare workflow. -/
theorem ofDocument_bare (doc : Document) :
    ofDocument (doc.bare blocks) = (ofDocument doc).bare blocks := by
  have root : (doc.bare blocks).root.mapping? =
      doc.root.mapping?.map (Mapping.bare blocks) := Node.mapping?_bare _
  cases h : doc.root.mapping? with
  | none =>
    rw [h] at root
    simp only [ofDocument, h, root, Option.map_none]
    rfl
  | some m =>
    rw [h] at root
    simp only [ofDocument, h, root, Option.map_some, bare, scalarAt_bare, mappingAt_bare,
      extraKeys_bare, Mapping.get?_bare, Trigger.ofNode_bare, Permissions.ofNode_bare,
      Job.ofNode_bare]
    congr 1
    exact SecretRef.ofRoot_bare doc.root

variable (w : Workflow)

@[simp] theorem permissions_bare : (w.bare blocks).permissions = w.permissions := rfl

@[simp] theorem concurrency_bare :
    (w.bare blocks).concurrency = w.concurrency.map (Node.bare blocks) := rfl

@[simp] theorem jobs_bare : (w.bare blocks).jobs = w.jobs.map (Job.bare blocks) := rfl

@[simp] theorem secretRefs_bare : (w.bare blocks).secretRefs = w.secretRefs := rfl

@[simp] theorem events_bare : (w.bare blocks).events = w.events := by
  simp [events, bare, Trigger.bare, Function.comp_def]

@[simp] theorem hasPushAndPullRequest_bare :
    (w.bare blocks).hasPushAndPullRequest = w.hasPushAndPullRequest := by
  simp [hasPushAndPullRequest]

@[simp] theorem steps_bare :
    (w.bare blocks).steps = w.steps.map fun x => (x.1.bare blocks, x.2.bare blocks) := by
  simp [steps, bare, List.flatMap_map, List.map_flatMap, Function.comp_def]

end Workflow

end FlowLint
