import FlowLint.Proofs.Pointer
import FlowLint.Rule.Basic

/-! Where findings may be placed. `Workflow.Shows` lists the pointers at which a workflow shows a
node of its document, and a `Place` is one of them or a child of one, which need not exist. The
drafts of a rule fit a workflow if they leave its name and the order to `Rule.stamp` and lie at
places; that each rule's drafts fit is the one fact about a rule that statements about all rules
go by. -/

namespace FlowLint

open FlowLint.Tree (Node Scalar Mapping Pointer.child)

/-- The pointer is one at which the workflow shows a node of its document. -/
inductive Workflow.Shows (w : Workflow) : String → Prop where
  | root : w.Shows ""
  | node {p : String} : p ∈ w.source.pointers → w.Shows p
  | concurrency : w.concurrency.isSome → w.Shows "/concurrency"
  | permissions {p : Permissions} : w.permissions = some p → w.Shows p.path
  | trigger {t : Trigger} : t ∈ w.triggers → w.Shows t.path
  | filter {t : Trigger} {m : Mapping} {key : String} {n : Node} : t ∈ w.triggers →
      t.filters = some m → m.get? key = some n → w.Shows (Pointer.child t.path key)
  | job {j : Job} : j ∈ w.jobs → w.Shows j.path
  | jobPart {j : Job} {key : String} {n : Node} : j ∈ w.jobs → j.node.get? key = some n →
      w.Shows (Pointer.child j.path key)
  | label {j : Job} {label : String × String} : j ∈ w.jobs → label ∈ j.runnerLabels →
      w.Shows label.1
  | step {j : Job} {st : Step} : (j, st) ∈ w.steps → w.Shows st.path
  | stepPart {j : Job} {st : Step} {key : String} {n : Node} : (j, st) ∈ w.steps →
      st.node.get? key = some n → w.Shows (Pointer.child st.path key)
  | secret {r : SecretRef} : r ∈ w.secretRefs → w.Shows r.path

/-- The pointer is one of a node that the workflow shows, or of a child of one; of the root, only
the keys that mean something are children. -/
inductive Workflow.Place (w : Workflow) : String → Prop where
  | shown {p : String} : w.Shows p → w.Place p
  | child {p : String} (key : String) : w.Shows p → (p = "" → key ∈ rootKeys) →
      w.Place (Pointer.child p key)

/-- The draft bears no name and no order of its own and lies at a place of the workflow. -/
structure Draft.Fits (w : Workflow) (d : Draft) : Prop where
  ruleId : d.ruleId = none
  order : d.order = none
  place : w.Place d.location

/-- All drafts of the rule fit, whatever the settings. -/
def Rule.Fits (r : Rule) : Prop := ∀ w s, ∀ d ∈ (r.check w s).drafts, d.Fits w

theorem Rule.Fits.total {id description : String} {category : Category} {severity : Severity}
    {check : Workflow → Settings → List Draft} (h : ∀ w s, ∀ d ∈ check w s, d.Fits w) :
    (Rule.total id category severity description check).Fits := h

/-- The findings of a fitting rule bear its name. -/
theorem Rule.Fits.ruleId {r : Rule} (h : r.Fits) {w : Workflow} {s : Settings} {f : Finding}
    (hf : f ∈ (r.evaluate w s).findings) : f.ruleId = r.id := by
  obtain ⟨d, hd, rfl⟩ := List.mem_map.mp hf
  simp [Rule.stamp, (h w s d hd).ruleId]

/-- The findings of a fitting rule lie at places, each with the order of its place. -/
theorem Rule.Fits.place {r : Rule} (h : r.Fits) {w : Workflow} {s : Settings} {f : Finding}
    (hf : f ∈ (r.evaluate w s).findings) :
    w.Place f.location ∧ f.order = w.source.orderOf f.location := by
  obtain ⟨d, hd, rfl⟩ := List.mem_map.mp hf
  have fits : d.Fits w := h w s d hd
  exact ⟨fits.place, by simp only [Rule.stamp, fits.order, Option.getD_none]⟩

theorem valued?_eq_some {n : Option Node} {s : Scalar} (h : Tree.valued? n = some s) :
    n = some (.scalar s) := by
  unfold Tree.valued? at h
  split at h
  · split at h
    · cases h
    · cases h; rfl
  · cases h

theorem scalarAt_eq_some {m : Mapping} {key : String} {s : Scalar}
    (h : scalarAt m key = some s) : m.get? key = some (.scalar s) := valued?_eq_some h

theorem mappingAt_eq_some {m m' : Mapping} {key : String} (h : mappingAt m key = some m') :
    m.get? key = some (.mapping m'.origin m'.entries) := by
  obtain ⟨n, hn, h⟩ := Option.bind_eq_some_iff.mp h
  cases n with
  | mapping o entries => cases h; exact hn
  | _ => cases h

/-- The permissions of a job are those at its key. -/
theorem Job.permissions_path {j : Job} {p : Permissions} (h : j.permissions = some p) :
    ∃ n, j.node.get? "permissions" = some n ∧ p.path = Pointer.child j.path "permissions" := by
  unfold Job.permissions at h
  cases hn : j.node.get? "permissions" with
  | none => rw [hn] at h; cases h
  | some n =>
    refine ⟨n, rfl, ?_⟩
    rw [hn] at h
    cases n <;> cases h <;> rfl

/-- An input of an action stands under the key of its inputs. -/
theorem Step.input_eq_some {st : Step} {key : String} {n : Node} (h : st.input key = some n) :
    ∃ m, st.node.get? "with" = some m := by
  obtain ⟨m, hm, -⟩ := Option.bind_eq_some_iff.mp h
  exact ⟨_, mappingAt_eq_some hm⟩

theorem mem_steps {w : Workflow} {j : Job} {st : Step} :
    (j, st) ∈ w.steps ↔ j ∈ w.jobs ∧ st ∈ j.steps := by
  simp [Workflow.steps]

namespace Workflow

variable {w : Workflow}

theorem Place.rootPart (key : String) (known : key ∈ rootKeys) : w.Place (Pointer.child "" key) :=
  .child key .root fun _ => known

/-- What is below a child is not a key of the root. -/
theorem Place.below {p : String} (segment key : String) (h : w.Shows (Pointer.child p segment)) :
    w.Place (Pointer.child (Pointer.child p segment) key) :=
  .child key h fun root => absurd root (Tree.Pointer.child_ne_empty p segment)

theorem Shows.jobScalar {j : Job} {key : String} {s : Scalar} (hj : j ∈ w.jobs)
    (h : scalarAt j.node key = some s) : w.Shows (Pointer.child j.path key) :=
  .jobPart hj (scalarAt_eq_some h)

theorem Shows.stepScalar {j : Job} {st : Step} {key : String} {s : Scalar} (h : (j, st) ∈ w.steps)
    (hs : scalarAt st.node key = some s) : w.Shows (Pointer.child st.path key) :=
  .stepPart h (scalarAt_eq_some hs)

theorem trigger?_mem {event : String} {t : Trigger} (h : w.trigger? event = some t) :
    t ∈ w.triggers := List.mem_of_find?_eq_some h

end Workflow

end FlowLint
