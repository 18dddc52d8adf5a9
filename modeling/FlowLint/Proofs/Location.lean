import FlowLint.Proofs.Lookup
import FlowLint.Proofs.Place

/-! Where the nodes of a workflow are. Whatever a workflow shows of its document is there: each part
keeps the pointer under which its node stands in the tree (`Workflow.Shows.mem_pointers`). -/

namespace FlowLint

open FlowLint.Tree (Node Scalar Mapping Document Pointer.child Pointer.item Pointer.descendant
  valued?)

/-- The node stands in the document under the pointer. -/
def Holds (doc : Document) (p : String) (n : Node) : Prop := (p, n) ∈ doc.root.walk ""

variable {doc : Document}

namespace Holds

theorem root (doc : Document) : Holds doc "" doc.root := doc.root.mem_walk_self ""

theorem mem_pointers {p : String} {n : Node} (h : Holds doc p n) : p ∈ doc.pointers := by
  rw [doc.pointers_eq]
  exact List.mem_map_of_mem h

/-- No two nodes have the same pointer, if the table holds none twice. -/
theorem unique (distinct : doc.pointers.Nodup) {p : String} {n m : Node} (h : Holds doc p n)
    (h' : Holds doc p m) : n = m := by
  rw [doc.pointers_eq] at distinct
  exact (Prod.mk.inj (List.inj_on_of_nodup_map distinct h h' rfl)).2

theorem get? {p key : String} {m : Mapping} {n : Node}
    (h : Holds doc p (.mapping m.origin m.entries)) (hn : m.get? key = some n) :
    Holds doc (Pointer.child p key) n := by
  obtain ⟨k, hk, rfl⟩ := Mapping.get?_mem hn
  exact Node.mem_walk_child h (Node.mem_children_mapping.mpr ⟨k, hk, rfl⟩)

theorem item {p : String} {o : Tree.Origin} {items : List Node} {i : Nat} {n : Node}
    (h : Holds doc p (.sequence o items)) (hn : items[i]? = some n) :
    Holds doc (Pointer.item p i) n :=
  Node.mem_walk_child h (Node.mem_children_sequence.mpr ⟨i, hn, rfl⟩)

theorem mappingAt {p key : String} {m m' : Mapping}
    (h : Holds doc p (.mapping m.origin m.entries)) (hm : FlowLint.mappingAt m key = some m') :
    Holds doc (Pointer.child p key) (.mapping m'.origin m'.entries) :=
  h.get? (mappingAt_eq_some hm)

end Holds

theorem mapping?_eq_some {n : Node} {m : Mapping} (h : n.mapping? = some m) :
    n = .mapping m.origin m.entries := by
  cases n with
  | mapping o entries => cases h; rfl
  | _ => cases h

theorem exists_of_mem_zipIdx {α : Type} {l : List α} {first : Nat} {x : α × Nat}
    (h : x ∈ l.zipIdx first) : ∃ i, l[i]? = some x.1 ∧ x.2 = first + i := by
  obtain ⟨behind, hx⟩ := List.mk_mem_zipIdx_iff_le_and_getElem?_sub.mp h
  exact ⟨x.2 - first, hx, (Nat.add_sub_cancel' behind).symm⟩

theorem itemScalars_eq (path : String) (first : Nat) (items : List Node) :
    itemScalars path first items =
      (items.zipIdx first).filterMap fun x =>
        (valued? (some x.1)).map (Pointer.item path x.2, ·) := by
  induction items generalizing first with
  | nil => rfl
  | cons n rest ih =>
    rw [itemScalars, ih, List.zipIdx_cons, List.filterMap_cons]
    cases valued? (some n) <;> rfl

theorem mem_itemScalars {path : String} {first : Nat} {items : List Node} {x : String × Scalar}
    (h : x ∈ itemScalars path first items) :
    ∃ i, items[i]? = some (.scalar x.2) ∧ x.1 = Pointer.item path (first + i) := by
  rw [itemScalars_eq] at h
  obtain ⟨numbered, hnumbered, h⟩ := List.mem_filterMap.mp h
  obtain ⟨s, hs, rfl⟩ := Option.map_eq_some_iff.mp h
  obtain ⟨i, hi, number⟩ := exists_of_mem_zipIdx hnumbered
  exact ⟨i, hi.trans (valued?_eq_some hs), congrArg (Pointer.item path) number⟩

theorem Holds.pointedScalars {path : String} {node : Option Node} {x : String × Scalar}
    (h : ∀ n, node = some n → Holds doc path n) (hx : x ∈ pointedScalars node path) :
    Holds doc x.1 (.scalar x.2) := by
  unfold FlowLint.pointedScalars at hx
  split at hx
  next o items =>
    obtain ⟨i, hi, hx⟩ := mem_itemScalars hx
    rw [hx, Nat.zero_add]
    exact (h _ rfl).item hi
  · obtain ⟨s, hs, rfl⟩ := Option.map_eq_some_iff.mp (Option.mem_toList.mp hx)
    exact h _ (valued?_eq_some hs)

/-! ### Triggers and permissions -/

theorem Trigger.holds_of_mem {node : Option Node} {t : Trigger}
    (h : ∀ n, node = some n → Holds doc "/on" n) (ht : t ∈ Trigger.ofNode node) :
    ∃ n, Holds doc t.path n ∧ ∀ config, t.config = some config → config = n := by
  unfold Trigger.ofNode at ht
  split at ht
  next o entries =>
    obtain ⟨⟨key, config⟩, he, rfl⟩ := List.mem_map.mp ht
    refine ⟨config, ?_, fun c hc => (Option.some.inj hc).symm⟩
    exact Node.mem_walk_child (h _ rfl) (Node.mem_children_mapping.mpr ⟨key, he, rfl⟩)
  · obtain ⟨x, hx, rfl⟩ := List.mem_map.mp ht
    exact ⟨_, Holds.pointedScalars h hx, nofun⟩

theorem Permissions.path_of_ofNode {node : Option Node} {path : String} {p : Permissions}
    (h : Permissions.ofNode node path = some p) : p.path = path ∧ ∃ n, node = some n := by
  cases node with
  | none => cases h
  | some n => cases n <;> cases h <;> exact ⟨rfl, _, rfl⟩

/-! ### Jobs and steps -/

/-- A job is an entry of the jobs. -/
theorem Job.mem_ofNode {node : Option Node} {j : Job} (hj : j ∈ Job.ofNode node) :
    ∃ o entries, node = some (.mapping o entries) ∧
      (j.key, .mapping j.node.origin j.node.entries) ∈ entries ∧
      j.path = Pointer.child "/jobs" j.id := by
  unfold Job.ofNode at hj
  split at hj
  next o entries =>
    obtain ⟨⟨key, n⟩, he, hj⟩ := List.mem_filterMap.mp hj
    obtain ⟨m, hm, rfl⟩ := Option.map_eq_some_iff.mp hj
    rw [mapping?_eq_some hm] at he
    exact ⟨o, entries, rfl, he, rfl⟩
  · cases hj

theorem Job.holds_of_mem {node : Option Node} {j : Job}
    (h : ∀ n, node = some n → Holds doc "/jobs" n) (hj : j ∈ Job.ofNode node) :
    Holds doc j.path (.mapping j.node.origin j.node.entries) := by
  obtain ⟨o, entries, there, he, path⟩ := Job.mem_ofNode hj
  rw [path]
  exact Node.mem_walk_child (h _ there) (Node.mem_children_mapping.mpr ⟨j.key, he, rfl⟩)

theorem Job.stepsFrom_eq (path : String) (first : Nat) (items : List Node) :
    Job.stepsFrom path first items =
      (items.zipIdx first).filterMap fun x =>
        x.1.mapping?.map fun node => ⟨x.2, Pointer.item path x.2, node⟩ := by
  induction items generalizing first with
  | nil => rfl
  | cons n rest ih =>
    rw [Job.stepsFrom, ih, List.zipIdx_cons, List.filterMap_cons]
    cases n.mapping? <;> rfl

theorem Job.mem_stepsFrom {path : String} {first : Nat} {items : List Node} {st : Step}
    (h : st ∈ Job.stepsFrom path first items) :
    ∃ i, items[i]? = some (.mapping st.node.origin st.node.entries) ∧
      st.path = Pointer.item path (first + i) := by
  rw [Job.stepsFrom_eq] at h
  obtain ⟨numbered, hnumbered, h⟩ := List.mem_filterMap.mp h
  obtain ⟨m, hm, rfl⟩ := Option.map_eq_some_iff.mp h
  obtain ⟨i, hi, number⟩ := exists_of_mem_zipIdx hnumbered
  rw [mapping?_eq_some hm] at hi
  exact ⟨i, hi, congrArg (Pointer.item path) number⟩

section

variable {j : Job} (hj : Holds doc j.path (.mapping j.node.origin j.node.entries))

include hj

theorem Job.holds_step {st : Step} (h : st ∈ j.steps) :
    Holds doc st.path (.mapping st.node.origin st.node.entries) := by
  unfold Job.steps at h
  split at h
  next o items hs =>
    obtain ⟨i, hi, hst⟩ := Job.mem_stepsFrom h
    rw [hst, Nat.zero_add]
    exact (hj.get? hs).item hi
  · cases h

theorem Job.holds_runsOn {x : String × Scalar} (h : x ∈ j.runsOn) :
    Holds doc x.1 (.scalar x.2) := by
  unfold Job.runsOn at h
  split at h
  next o entries hm =>
    exact Holds.pointedScalars (fun n hn => (hj.get? hm).get? (m := ⟨o, entries⟩) hn) h
  · exact Holds.pointedScalars (fun n hn => hj.get? hn) h

/-- A label stands where it is written, be it at the runner or in the matrix. -/
theorem Job.holds_runnerLabel {label : String × String} (h : label ∈ j.runnerLabels) :
    ∃ s : Scalar, Holds doc label.1 (.scalar s) ∧ s.value = label.2 := by
  obtain ⟨⟨pointer, s⟩, hs, h⟩ := List.mem_flatMap.mp h
  simp only at h
  split at h
  next name matrix hname hmatrix =>
    obtain ⟨x, hx, rfl⟩ := List.mem_map.mp h
    obtain ⟨n, hn, hm⟩ := Option.bind_eq_some_iff.mp hmatrix
    obtain ⟨strategy, hstrategy, hn⟩ := Option.bind_eq_some_iff.mp hn
    have there := ((hj.mappingAt hstrategy).get? hn)
    rw [mapping?_eq_some hm] at there
    exact ⟨x.2, Holds.pointedScalars (fun n hn => there.get? hn) hx, rfl⟩
  · rw [List.mem_singleton] at h
    subst h
    exact ⟨s, Job.holds_runsOn hj hs, rfl⟩

end

/-! ### Secrets -/

/-- An expression that reads a secret stands in a scalar, and has its pointer and its line. -/
theorem mem_secretsBelow {n : Node} {p : String} {x : String × String × Nat}
    (h : x ∈ secretsBelow n p) :
    ∃ path s, n.At path (.scalar s) ∧ x.1 = Pointer.descendant p path ∧ x.2.2 = s.origin.line := by
  obtain ⟨⟨q, m⟩, hm, hx⟩ := List.mem_flatMap.mp h
  obtain ⟨path, at_path, rfl⟩ := Node.mem_walk_iff.mp hm
  cases m with
  | scalar s =>
    obtain ⟨expression, -, rfl⟩ := List.mem_map.mp hx
    exact ⟨path, s, at_path, rfl, rfl⟩
  | _ => cases hx

/-! ### Workflows -/

namespace Workflow

/-- A workflow shows nothing, or it shows the parts of a mapping at the root. -/
theorem ofDocument_eq (doc : Document) :
    ofDocument doc = { source := doc } ∨
    ∃ root : Mapping, Holds doc "" (.mapping root.origin root.entries) ∧
      (ofDocument doc).triggers = Trigger.ofNode (root.get? "on") ∧
      (ofDocument doc).permissions =
        Permissions.ofNode (root.get? "permissions") "/permissions" ∧
      (ofDocument doc).concurrency = root.get? "concurrency" ∧
      (ofDocument doc).jobs = Job.ofNode (root.get? "jobs") ∧
      (ofDocument doc).secretRefs = SecretRef.ofRoot doc.root := by
  cases h : doc.root.mapping? with
  | none => exact .inl (by simp only [ofDocument, h])
  | some root =>
    have there := Holds.root doc
    rw [mapping?_eq_some h] at there
    exact .inr ⟨root, there, by simp only [ofDocument, h, and_self]⟩

@[simp] theorem source_ofDocument (doc : Document) : (ofDocument doc).source = doc := by
  unfold ofDocument
  split <;> rfl

/-- A job of a workflow is the mapping at its pointer. -/
theorem holds_of_mem_jobs {j : Job} (hj : j ∈ (ofDocument doc).jobs) :
    Holds doc j.path (.mapping j.node.origin j.node.entries) := by
  rcases ofDocument_eq doc with empty | ⟨root, there, -, -, -, jobs, -⟩
  · rw [empty] at hj
    cases hj
  · rw [jobs] at hj
    have listed : ∀ n, root.get? "jobs" = some n → Holds doc "/jobs" n := fun _ hn => there.get? hn
    exact Job.holds_of_mem listed hj

/-- Two steps with the same pointer are the same mapping. -/
theorem node_eq_of_path_eq (distinct : doc.pointers.Nodup) {x y : Job × Step}
    (hx : x ∈ (ofDocument doc).steps) (hy : y ∈ (ofDocument doc).steps)
    (same : x.2.path = y.2.path) : x.2.node = y.2.node := by
  have there {x : Job × Step} (hx : x ∈ (ofDocument doc).steps) :
      Holds doc x.2.path (.mapping x.2.node.origin x.2.node.entries) := by
    obtain ⟨hj, hst⟩ := mem_steps.mp hx
    exact Job.holds_step (holds_of_mem_jobs hj) hst
  obtain ⟨origin, entries⟩ :=
    Node.mapping.inj ((there hx).unique distinct (same ▸ there hy))
  calc x.2.node = ⟨x.2.node.origin, x.2.node.entries⟩ := rfl
    _ = y.2.node := by rw [origin, entries]

theorem mem_secretRefs {r : SecretRef} (hr : r ∈ (ofDocument doc).secretRefs) :
    r ∈ SecretRef.ofRoot doc.root := by
  rcases ofDocument_eq doc with empty | ⟨root, -, -, -, -, -, secrets⟩
  · rw [empty] at hr
    cases hr
  · exact secrets ▸ hr

theorem secretRef_path_mem_pointers {r : SecretRef} (h : r ∈ SecretRef.ofRoot doc.root) :
    r.path ∈ doc.pointers := by
  obtain ⟨x, hx, rfl⟩ := List.mem_map.mp h
  obtain ⟨path, s, at_path, place, -⟩ := mem_secretsBelow hx
  exact Document.mem_pointers_iff.mpr ⟨path, _, at_path, place⟩

/-- What a workflow shows of its document is there. -/
theorem Shows.mem_pointers {p : String} (h : (ofDocument doc).Shows p) : p ∈ doc.pointers := by
  rcases ofDocument_eq doc with
    empty | ⟨root, there, triggers, permissions, concurrency, -, -⟩
  · -- of a root that is no mapping only the tree itself is shown
    cases h with
    | root => exact (Holds.root doc).mem_pointers
    | node h => rwa [source_ofDocument] at h
    | concurrency h | permissions h | trigger h | filter h | job h | jobPart h | label h
    | secret h => rw [empty] at h; cases h
    | step h | stepPart h =>
      have := (mem_steps.mp h).1
      rw [empty] at this
      cases this
  · have part : ∀ key n, root.get? key = some n → Holds doc (Pointer.child "" key) n :=
      fun key n hn => there.get? hn
    have trigger : ∀ t ∈ (ofDocument doc).triggers, ∃ n, Holds doc t.path n ∧
        ∀ config, t.config = some config → config = n := by
      rw [triggers]
      exact fun t ht => Trigger.holds_of_mem (part "on") ht
    have step : ∀ {j st}, (j, st) ∈ (ofDocument doc).steps →
        Holds doc st.path (.mapping st.node.origin st.node.entries) := by
      intro j st h
      obtain ⟨hj, hst⟩ := mem_steps.mp h
      exact Job.holds_step (holds_of_mem_jobs hj) hst
    cases h with
    | root => exact there.mem_pointers
    | node h => rwa [source_ofDocument] at h
    | concurrency h =>
      rw [concurrency] at h
      obtain ⟨n, hn⟩ := Option.isSome_iff_exists.mp h
      exact (part _ n hn).mem_pointers
    | permissions h =>
      rw [permissions] at h
      obtain ⟨path, n, hn⟩ := Permissions.path_of_ofNode h
      rw [path]
      exact (part _ n hn).mem_pointers
    | trigger h =>
      obtain ⟨n, hn, -⟩ := trigger _ h
      exact hn.mem_pointers
    | filter h hfilters hkey =>
      obtain ⟨n, hn, same⟩ := trigger _ h
      obtain ⟨config, hconfig, hm⟩ := Option.bind_eq_some_iff.mp hfilters
      rw [← same config hconfig, mapping?_eq_some hm] at hn
      exact (hn.get? hkey).mem_pointers
    | job h => exact (holds_of_mem_jobs h).mem_pointers
    | jobPart h hkey => exact ((holds_of_mem_jobs h).get? hkey).mem_pointers
    | label h hlabel =>
      obtain ⟨s, hs, -⟩ := Job.holds_runnerLabel (holds_of_mem_jobs h) hlabel
      exact hs.mem_pointers
    | step h => exact (step h).mem_pointers
    | stepPart h hkey => exact ((step h).get? hkey).mem_pointers
    | secret h => exact secretRef_path_mem_pointers (mem_secretRefs h)

end Workflow

end FlowLint
