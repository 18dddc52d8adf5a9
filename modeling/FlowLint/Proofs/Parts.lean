import FlowLint.Proofs.Location
import FlowLint.Proofs.Table

/-! The parts of a workflow and the tree. A workflow shows every job, step, event and permission of
its root, in the order of the text, and the pointer of each part leads to its node
(`Workflow.isFaithful_ofDocument`). -/

namespace FlowLint

open FlowLint.Tree (Node Scalar Mapping Document Pointer.child Pointer.item valued? load)

/-! ### What the tree holds -/

/-- The entries of a mapping; no other node has any. -/
def entriesOf : Option Node → List (Scalar × Node)
  | some (.mapping _ entries) => entries
  | _ => []

/-- The items of a sequence; no other node has any. -/
def itemsOf : Option Node → List Node
  | some (.sequence _ items) => items
  | _ => []

/-- The scalar at a node, or the scalars of the sequence there. -/
def scalarsOf : Option Node → List Scalar
  | some (.sequence _ items) => items.filterMap fun n => valued? (some n)
  | node => (valued? node).toList

/-- The events that a node names, each with its configuration and the node that stands for it. -/
def announcedBy : Option Node → List (String × Option Node × Node)
  | some (.mapping _ entries) => entries.map fun e => (e.1.value, some e.2, e.2)
  | node => (scalarsOf node).map fun s => (s.value, none, .scalar s)

/-- The workflow shows what the root holds, and its pointers lead to the nodes of the parts. Entries
and items that are no mappings are neither jobs nor steps. -/
structure Workflow.IsFaithful (w : Workflow) (root : Mapping) : Prop where
  jobs : w.jobs.map (fun j => (j.key, j.node, w.source.nodeAt j.path)) =
    (entriesOf (root.get? "jobs")).filterMap fun e =>
      e.2.mapping?.map fun m => (e.1, m, .ok (some e.2))
  /-- A step keeps its number in the whole sequence. -/
  steps : ∀ j ∈ w.jobs,
    j.steps.map (fun st => (st.index, st.node, w.source.nodeAt st.path)) =
      (itemsOf (j.node.get? "steps")).zipIdx.filterMap fun x =>
        x.1.mapping?.map fun m => (x.2, m, .ok (some x.1))
  triggers : w.triggers.map (fun t => (t.event, t.config, w.source.nodeAt t.path)) =
    (announcedBy (root.get? "on")).map fun e => (e.1, e.2.1, .ok (some e.2.2))
  permissions : w.permissions.map (fun p => w.source.nodeAt p.path) =
    (root.get? "permissions").map fun n => .ok (some n)
  jobPermissions : ∀ j ∈ w.jobs,
    j.permissions.map (fun p => w.source.nodeAt p.path) =
      (j.node.get? "permissions").map fun n => .ok (some n)
  /-- A label of the matrix stands at a value of the variable. -/
  labels : ∀ j ∈ w.jobs, ∀ label ∈ j.runnerLabels,
    ∃ s : Scalar, w.source.nodeAt label.1 = .ok (some (.scalar s)) ∧ s.value = label.2

/-! ### What the workflow shows -/

theorem map_snd_itemScalars (path : String) (items : List Node) :
    (itemScalars path 0 items).map (·.2) = items.filterMap fun n => valued? (some n) := by
  have values (x : Node × Nat) : ((valued? (some x.1)).map (Pointer.item path x.2, ·)).map (·.2) =
      valued? (some x.1) := by
    rw [Option.map_map]
    exact Option.map_id'
  have numberless : (items.zipIdx.map (·.1)).filterMap (fun n => valued? (some n)) =
      items.zipIdx.filterMap fun x => valued? (some x.1) := List.filterMap_map
  rw [List.zipIdx_map_fst] at numberless
  rw [itemScalars_eq, List.map_filterMap, numberless]
  simp only [values]

theorem map_snd_pointedScalars (node : Option Node) (path : String) :
    (pointedScalars node path).map (·.2) = scalarsOf node := by
  cases node with
  | none => rfl
  | some n =>
    cases n with
    | scalar s =>
      show ((valued? (some (.scalar s))).map (path, ·)).toList.map (·.2) =
        (valued? (some (.scalar s))).toList
      cases valued? (some (.scalar s)) <;> rfl
    | sequence o items => exact map_snd_itemScalars path items
    | mapping o entries => rfl

section

variable {doc : Document} (found : ∀ {p n}, Holds doc p n → doc.nodeAt p = .ok (some n))
include found

theorem Job.map_ofNode {node : Option Node} (there : ∀ n, node = some n → Holds doc "/jobs" n) :
    (Job.ofNode node).map (fun j => (j.key, j.node, doc.nodeAt j.path)) =
      (entriesOf node).filterMap fun e =>
        e.2.mapping?.map fun m => (e.1, m, .ok (some e.2)) := by
  cases node with
  | none => rfl
  | some n =>
    cases n with
    | mapping o entries =>
      rw [Job.ofNode, List.map_filterMap]
      refine List.filterMap_congr fun e he => ?_
      have at_entry := found (Node.mem_walk_child (there _ rfl)
        (Node.mem_children_mapping.mpr ⟨e.1, he, rfl⟩))
      rw [Option.map_map]
      exact Option.map_congr fun m _ => congrArg (e.1, m, ·) at_entry
    | _ => rfl

theorem Job.map_steps {j : Job} (there : Holds doc j.path (.mapping j.node.origin j.node.entries)) :
    j.steps.map (fun st => (st.index, st.node, doc.nodeAt st.path)) =
      (itemsOf (j.node.get? "steps")).zipIdx.filterMap fun x =>
        x.1.mapping?.map fun m => (x.2, m, .ok (some x.1)) := by
  unfold Job.steps
  cases at_key : j.node.get? "steps" with
  | none => rfl
  | some n =>
    cases n with
    | sequence o items =>
      show (Job.stepsFrom _ 0 items).map _ = items.zipIdx.filterMap _
      rw [Job.stepsFrom_eq, List.map_filterMap]
      refine List.filterMap_congr fun x hx => ?_
      have at_item := found ((there.get? at_key).item (List.mem_zipIdx_iff_getElem?.mp hx))
      rw [Option.map_map]
      exact Option.map_congr fun m _ => congrArg (x.2, m, ·) at_item
    | _ => rfl

theorem Trigger.map_ofNode {node : Option Node} (there : ∀ n, node = some n → Holds doc "/on" n) :
    (Trigger.ofNode node).map (fun t => (t.event, t.config, doc.nodeAt t.path)) =
      (announcedBy node).map fun e => (e.1, e.2.1, .ok (some e.2.2)) := by
  have scalars : ((pointedScalars node "/on").map fun x : String × Scalar =>
      ({ event := x.2.value, path := x.1 } : Trigger)).map
        (fun t => (t.event, t.config, doc.nodeAt t.path)) =
      ((scalarsOf node).map fun s => (s.value, none, Node.scalar s)).map
        fun e => (e.1, e.2.1, .ok (some e.2.2)) := by
    rw [← map_snd_pointedScalars node "/on", List.map_map, List.map_map, List.map_map]
    refine List.map_congr_left fun x hx => ?_
    exact congrArg (x.2.value, none, ·) (found (Holds.pointedScalars there hx))
  cases node with
  | none => rfl
  | some n =>
    cases n with
    | mapping o entries =>
      rw [Trigger.ofNode, announcedBy, List.map_map, List.map_map]
      refine List.map_congr_left fun e he => ?_
      exact congrArg (e.1.value, some e.2, ·) (found (Node.mem_walk_child (there _ rfl)
        (Node.mem_children_mapping.mpr ⟨e.1, he, rfl⟩)))
    | _ => exact scalars

theorem Permissions.map_ofNode {node : Option Node} {path : String}
    (there : ∀ n, node = some n → Holds doc path n) :
    (Permissions.ofNode node path).map (fun p => doc.nodeAt p.path) =
      node.map fun n => .ok (some n) := by
  cases node with
  | none => rfl
  | some n =>
    have at_path := found (there n rfl)
    cases n <;> exact congrArg some at_path

end

namespace Workflow

/-- The workflow of a document that loads shows all parts of its root, each where its pointer leads.
As in the table of places, the text is one that fits into a machine. -/
theorem isFaithful_ofDocument {text : String} {doc : Document} (h : load text = .ok doc)
    (short : text.length < 2 ^ 64) {root : Mapping} (hroot : doc.root.mapping? = some root) :
    (ofDocument doc).IsFaithful root := by
  have found {p : String} {n : Node} (hn : Holds doc p n) : doc.nodeAt p = .ok (some n) :=
    Document.nodeAt_of_mem_walk (Tree.load_isReadable h short) hn
  have there := Holds.root doc
  rw [mapping?_eq_some hroot] at there
  have part : ∀ key n, root.get? key = some n → Holds doc (Pointer.child "" key) n :=
    fun key n hn => there.get? hn
  have jobs : (ofDocument doc).jobs = Job.ofNode (root.get? "jobs") := by
    simp only [ofDocument, hroot]
  constructor
  case jobs =>
    rw [source_ofDocument, jobs]
    exact Job.map_ofNode found (part "jobs")
  case steps =>
    rw [source_ofDocument]
    exact fun j hj => Job.map_steps found (holds_of_mem_jobs hj)
  case triggers =>
    have triggers : (ofDocument doc).triggers = Trigger.ofNode (root.get? "on") := by
      simp only [ofDocument, hroot]
    rw [source_ofDocument, triggers]
    exact Trigger.map_ofNode found (part "on")
  case permissions =>
    have permissions : (ofDocument doc).permissions =
        Permissions.ofNode (root.get? "permissions") "/permissions" := by
      simp only [ofDocument, hroot]
    rw [source_ofDocument, permissions]
    exact Permissions.map_ofNode found (part "permissions")
  case jobPermissions =>
    rw [source_ofDocument]
    exact fun j hj => Permissions.map_ofNode found fun n hn => (holds_of_mem_jobs hj).get? hn
  case labels =>
    intro j hj label hlabel
    obtain ⟨s, hs, value⟩ := Job.holds_runnerLabel (holds_of_mem_jobs hj) hlabel
    rw [source_ofDocument]
    exact ⟨s, found hs, value⟩

/-- A key with a slash, items that are skipped, and labels that the matrix gives. -/
def skippingText : String :=
  "on: [~, push]\njobs:\n  a/b:\n    runs-on: ${{ matrix.os }}\n    strategy:\n      matrix:\n" ++
  "        os: [x, ~, y]\n    steps:\n    - s\n    - run: z\n  c:\n"

theorem isFaithful_ofDocument_skipping : ∃ (doc : Document) (root : Mapping),
    load skippingText = .ok doc ∧ doc.root.mapping? = some root ∧
    (ofDocument doc).triggers.map (·.path) = ["/on/1"] ∧
    (ofDocument doc).steps.map (·.2.path) = ["/jobs/a~1b/steps/1"] ∧
    (ofDocument doc).jobs.flatMap (·.runnerLabels.map (·.1)) =
      ["/jobs/a~1b/strategy/matrix/os/0", "/jobs/a~1b/strategy/matrix/os/2"] ∧
    (ofDocument doc).IsFaithful root := by
  obtain ⟨doc, loaded, shown⟩ := Tree.exists_of_toOption (show
    (load skippingText).toOption.map (fun doc => (doc.root.mapping?.isSome,
      (ofDocument doc).triggers.map (·.path), (ofDocument doc).steps.map (·.2.path),
      (ofDocument doc).jobs.flatMap (·.runnerLabels.map (·.1)))) =
      some (true, ["/on/1"], ["/jobs/a~1b/steps/1"],
        ["/jobs/a~1b/strategy/matrix/os/0", "/jobs/a~1b/strategy/matrix/os/2"]) by
    decide +kernel)
  simp only [Prod.mk.injEq] at shown
  obtain ⟨mapping, triggers, steps, labels⟩ := shown
  obtain ⟨root, hroot⟩ := Option.isSome_iff_exists.mp mapping
  exact ⟨doc, root, loaded, hroot, triggers, steps, labels,
    isFaithful_ofDocument loaded (by decide +kernel) hroot⟩

end Workflow

end FlowLint
