import FlowLint.Proofs.Location
import FlowLint.Proofs.PartReading
import FlowLint.Proofs.Within

/-! A document with one of its jobs. The text stays, and so does everything in the tree but the
other jobs (`Document.flatMap_keepJob`); of the parts of the workflow only the jobs become fewer
(`Workflow.ofDocument_keepJob`), and the secrets of the job that is kept are the same
(`Workflow.secretRefs_keepJob`). -/

namespace FlowLint

open FlowLint.Tree (Node Scalar Mapping Document Origin Pointer.child Pointer.descendant
  Pointer.isWithin)

/-- Elements of which nothing is made may be left out. -/
theorem flatMap_filter_of_silent {α β : Type} {p : α → Bool} {f : α → List β} {l : List α}
    (silent : ∀ x ∈ l, p x = false → f x = []) : (l.filter p).flatMap f = l.flatMap f := by
  induction l with
  | nil => rfl
  | cons x rest ih =>
    obtain ⟨hx, hrest⟩ := List.forall_mem_cons.mp silent
    rw [List.filter_cons, List.flatMap_cons, ← ih hrest]
    cases kept : p x with
    | false => simp [hx kept]
    | true => rfl

namespace Tree

/-- The node with one of its keys. -/
def Node.keepKey (n : Node) (key : String) : Node :=
  match n with
  | .mapping o entries => .mapping o (entries.filter (·.1.value == key))
  | n => n

/-- The entry with one of the jobs, if it is that of the jobs. -/
def keepJobAt (job : String) (e : Scalar × Node) : Scalar × Node :=
  (e.1, if e.1.value == "jobs" then e.2.keepKey job else e.2)

def Node.keepJob (n : Node) (job : String) : Node :=
  match n with
  | .mapping o entries => .mapping o (entries.map (keepJobAt job))
  | n => n

/-- The document of the same text in which one job is left. -/
def Document.keepJob (doc : Document) (job : String) : Document :=
  .ofRoot (doc.root.keepJob job) doc.text

theorem Node.origin_keepKey (n : Node) (key : String) : (n.keepKey key).origin = n.origin := by
  cases n <;> rfl

theorem Node.origin_keepJob (n : Node) (job : String) : (n.keepJob job).origin = n.origin := by
  cases n <;> rfl

namespace Document

variable {doc : Document} {job : String}

/-- What is made of the nodes of the jobs is the same for the job that is kept if nothing is made of
the other jobs, and the jobs themselves only matter by how they are written. -/
theorem flatMap_keepKey {β : Type} {F : String × Node → List β}
    (jobs : ∀ n, F ("/jobs", n.keepKey job) = F ("/jobs", n))
    (others : ∀ key rest n, key ≠ job → F (Pointer.descendant "/jobs" (key :: rest), n) = [])
    (n : Node) : ((n.keepKey job).walk "/jobs").flatMap F = (n.walk "/jobs").flatMap F := by
  cases n with
  | scalar s => rfl
  | sequence o items => rfl
  | mapping o entries =>
    have dropped : ∀ e ∈ entries, (e.1.value == job) = false →
        (e.2.walk (Pointer.child "/jobs" e.1.value)).flatMap F = [] := by
      intro e _ differ
      refine List.flatMap_eq_nil_iff.mpr fun x hx => ?_
      obtain ⟨path, -, place⟩ := Node.mem_walk_iff.mp hx
      have silent := others e.1.value path x.2 (by simpa using differ)
      rw [← silent]
      exact congrArg F (Prod.ext place rfl)
    have kept := flatMap_filter_of_silent dropped
    rw [Node.keepKey, Node.walk_eq, Node.walk_eq (.mapping o entries), List.flatMap_cons,
      List.flatMap_cons, Node.children, Node.children, List.flatMap_map, List.flatMap_map,
      List.flatMap_assoc, List.flatMap_assoc, kept]
    exact congrArg (· ++ _) (jobs (.mapping o entries))

/-- What is made of the nodes of a document is the same for the document with one job, if nothing is
made of the other jobs, and the root and the jobs only matter by how they are written. -/
theorem flatMap_keepJob {β : Type} {F : String × Node → List β}
    (root : F ("", doc.root.keepJob job) = F ("", doc.root))
    (jobs : ∀ n : Node, F ("/jobs", n.keepKey job) = F ("/jobs", n))
    (others : ∀ key rest n, key ≠ job → F (Pointer.descendant "/jobs" (key :: rest), n) = []) :
    ((doc.keepJob job).root.walk "").flatMap F = (doc.root.walk "").flatMap F := by
  change ((doc.root.keepJob job).walk "").flatMap F = _
  cases there : doc.root with
  | scalar s => rfl
  | sequence o items => rfl
  | mapping o entries =>
    rw [there] at root
    -- Every entry is walked as before, that of the jobs by what holds of single jobs.
    have part : ∀ e : Scalar × Node, ((keepJobAt job e).2.walk
        (Pointer.child "" (keepJobAt job e).1.value)).flatMap F =
          (e.2.walk (Pointer.child "" e.1.value)).flatMap F := by
      intro e
      by_cases here : e.1.value = "jobs"
      · simp only [keepJobAt, here, beq_self_eq_true, if_true]
        exact flatMap_keepKey jobs others e.2
      · simp only [keepJobAt, beq_false_of_ne here, Bool.false_eq_true, if_false]
    rw [Node.keepJob, Node.walk_eq, Node.walk_eq (.mapping o entries), List.flatMap_cons,
      List.flatMap_cons, Node.children, Node.children, List.flatMap_map, List.flatMap_map,
      List.flatMap_map, List.flatMap_assoc, List.flatMap_assoc]
    simp only [part]
    exact congrArg (· ++ _) root

end Document

theorem Mapping.get?_keepJob {o : Origin} {entries : List (Scalar × Node)} {job key : String} :
    get? ⟨o, entries.map (keepJobAt job)⟩ key =
      (get? ⟨o, entries⟩ key).map fun n => if key == "jobs" then n.keepKey job else n := by
  rw [get?, get?, entry?, entry?, List.find?_map]
  cases found : entries.find? (·.1.value == key) with
  | none =>
    have absent : entries.find? ((fun e => e.1.value == key) ∘ keepJobAt job) = none := found
    rw [absent]
    rfl
  | some e =>
    have there : entries.find? ((fun e => e.1.value == key) ∘ keepJobAt job) = some e := found
    have same : e.1.value = key := by simpa using List.find?_some found
    rw [there, ← same]
    rfl

end Tree

open FlowLint.Tree

/-- The pointer is that of the job or lies below it. -/
def inJob (job p : String) : Bool := Pointer.isWithin (Pointer.child "/jobs" job) p

theorem inJob_descendant (job : String) (path : List String) :
    inJob job (Pointer.descendant "" path) = true ↔ ["jobs", job] <+: path :=
  Pointer.isWithin_descendant ["jobs", job] path

/-- A job holds itself and none of the others. -/
theorem inJob_iff {job key : String} (rest : List String) :
    inJob job (Pointer.descendant "/jobs" (key :: rest)) = true ↔ key = job := by
  have segments := inJob_descendant job ("jobs" :: key :: rest)
  rw [List.cons_prefix_cons, List.cons_prefix_cons] at segments
  refine segments.trans ?_
  simp [eq_comm]

theorem Job.ofNode_keepKey (node : Option Node) (job : String) :
    Job.ofNode (node.map (·.keepKey job)) = (Job.ofNode node).filter (·.id == job) := by
  cases node with
  | none => rfl
  | some n =>
    cases n with
    | mapping o entries =>
      simp only [Option.map_some, Node.keepKey, Job.ofNode, List.filterMap_filter,
        List.filter_filterMap]
      refine List.filterMap_congr fun e _ => ?_
      cases e.2.mapping? with
      | none => simp
      | some m =>
        cases kept : e.1.value == job <;> simp [kept, Job.id, Option.filter]
    | _ => rfl

namespace Workflow

variable (doc : Document) (job : String)

/-- The other jobs are left out, and all parts but those are the same. -/
theorem ofDocument_keepJob :
    ofDocument (doc.keepJob job) =
      { ofDocument doc with
        jobs := (ofDocument doc).jobs.filter (·.id == job) }.withSource (doc.keepJob job)
          (ofDocument (doc.keepJob job)).extras (ofDocument (doc.keepJob job)).secretRefs := by
  cases there : doc.root with
  | mapping o entries =>
    have before : doc.root.mapping? = some ⟨o, entries⟩ := by
      rw [there]
      rfl
    have after : (doc.keepJob job).root.mapping? = some ⟨o, entries.map (keepJobAt job)⟩ := by
      change (doc.root.keepJob job).mapping? = _
      rw [there]
      rfl
    simp only [ofDocument, before, after, withSource, scalarAt, mappingAt, Mapping.get?_keepJob,
      ← Job.ofNode_keepKey]
    simp
  | _ =>
    have before : doc.root.mapping? = none := by
      rw [there]
      rfl
    have after : (doc.keepJob job).root.mapping? = none := by
      change (doc.root.keepJob job).mapping? = _
      rw [there]
      rfl
    simp [ofDocument, before, after, withSource]

/-- The secrets of the job that is kept are those that it had. -/
theorem secretRefs_keepJob :
    (ofDocument (doc.keepJob job)).secretRefs.filter (inJob job ·.path) =
      (ofDocument doc).secretRefs.filter (inJob job ·.path) := by
  have tree : (SecretRef.ofRoot (doc.keepJob job).root).filter (inJob job ·.path) =
      (SecretRef.ofRoot doc.root).filter (inJob job ·.path) := by
    simp only [SecretRef.ofRoot, secretsBelow, List.map_flatMap, List.filter_flatMap]
    refine Document.flatMap_keepJob ?_ (fun n => ?_) fun key rest n differ => ?_
    · cases doc.root <;> rfl
    · cases n <;> rfl
    · cases n with
      | scalar t =>
        refine List.filter_eq_nil_iff.mpr fun r hr => ?_
        obtain ⟨_, hx, rfl⟩ := List.mem_map.mp hr
        obtain ⟨_, -, rfl⟩ := List.mem_map.mp hx
        exact fun within => differ ((inJob_iff rest).mp within)
      | _ => rfl
  -- A root that is no mapping has no secrets, before and after.
  cases there : doc.root with
  | mapping o entries =>
    have after : (doc.keepJob job).root = .mapping o (entries.map (keepJobAt job)) := by
      change doc.root.keepJob job = _
      rw [there]
      rfl
    simp only [ofDocument, there, after, Node.mapping?] at tree ⊢
    exact tree
  | _ =>
    have after : (doc.keepJob job).root = doc.root := by
      change doc.root.keepJob job = _
      rw [there]
      rfl
    simp only [ofDocument, there, after, Node.mapping?]

end Workflow

end FlowLint
