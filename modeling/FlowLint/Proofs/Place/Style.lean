import FlowLint.Proofs.Place
import FlowLint.Rule.Style

/-! The drafts of the rules about style and consistency fit every workflow. -/

namespace FlowLint.Style

open FlowLint.Tree (Node Scalar Mapping Pointer.child Pointer.descendant)

variable {w : Workflow} {s : Settings} {d : Draft}

/-- A scalar under a key of each job, and one under a key of each step, stand where the workflow
shows a node. -/
theorem shows_of_scalars {jobScalar : Job → Option Scalar} {stepScalar : Step → Option Scalar}
    (key : String) {p : String × String} (hjob : ∀ j, jobScalar j = scalarAt j.node key)
    (hstep : ∀ st, stepScalar st = scalarAt st.node key)
    (hp : p ∈ w.jobs.flatMap fun j =>
      ((jobScalar j).map fun n => (Pointer.child j.path key, n.value)).toList ++
        j.steps.filterMap fun st =>
          (stepScalar st).map fun n => (Pointer.child st.path key, n.value)) :
    w.Shows p.1 := by
  obtain ⟨j, hj, hp⟩ := List.mem_flatMap.mp hp
  rcases List.mem_append.mp hp with hp | hp
  · obtain ⟨n, hn, rfl⟩ := Option.map_eq_some_iff.mp (Option.mem_toList.mp hp)
    exact .jobScalar hj (hjob j ▸ hn)
  · obtain ⟨st, hst, hp⟩ := List.mem_filterMap.mp hp
    obtain ⟨n, hn, rfl⟩ := Option.map_eq_some_iff.mp hp
    exact .stepScalar (mem_steps.mpr ⟨hj, hst⟩) (hstep st ▸ hn)

theorem nameCasing_fits (hd : d ∈ nameCasing w s) : d.Fits w := by
  obtain ⟨p, hp, hd⟩ := List.mem_filterMap.mp hd
  simp only at hd
  split at hd
  · cases hd
  · cases hd
    exact ⟨rfl, rfl, .shown (shows_of_scalars "name" (fun _ => rfl) (fun _ => rfl) hp)⟩

theorem jobIdentifiers_place {j : Job} {p : String × String} (hj : j ∈ w.jobs)
    (hp : p ∈ jobIdentifiers j) : w.Place p.1 := by
  rcases List.mem_append.mp hp with hp | hp
  · obtain ⟨st, hst, hp⟩ := List.mem_filterMap.mp hp
    split at hp
    next id hid =>
      split at hp
      · cases hp
      · cases hp
        exact .shown (.stepScalar (mem_steps.mpr ⟨hj, hst⟩) hid)
    · cases hp
  · split at hp
    next outputs ho =>
      obtain ⟨key, -, rfl⟩ := List.mem_map.mp hp
      exact .below _ key (.jobPart hj (mappingAt_eq_some ho))
    · cases hp

theorem triggerIdentifiers_place {t : Trigger} {p : String × String} (ht : t ∈ w.triggers)
    (hp : p ∈ triggerIdentifiers t) : w.Place p.1 := by
  obtain ⟨part, -, hp⟩ := List.mem_flatMap.mp hp
  split at hp
  next block hb =>
    obtain ⟨filters, hf, hb⟩ := Option.bind_eq_some_iff.mp hb
    obtain ⟨key, -, rfl⟩ := List.mem_map.mp hp
    exact .below _ key (.filter ht hf (mappingAt_eq_some hb))
  · cases hp

theorem identifierCase_fits (hd : d ∈ identifierCase w s) : d.Fits w := by
  obtain ⟨p, hp, hd⟩ := List.mem_filterMap.mp hd
  simp only at hd
  split at hd
  · cases hd
  · cases hd
    refine ⟨rfl, rfl, ?_⟩
    rcases List.mem_append.mp hp with hp | hp
    · obtain ⟨j, hj, hp⟩ := List.mem_flatMap.mp hp
      exact jobIdentifiers_place hj hp
    · obtain ⟨t, ht, hp⟩ := List.mem_flatMap.mp hp
      obtain ⟨event, -, ht⟩ := List.mem_filterMap.mp ht
      exact triggerIdentifiers_place (Workflow.trigger?_mem ht) hp

theorem matrixJobName_fits (hd : d ∈ matrixJobName w s) : d.Fits w := by
  obtain ⟨j, hj, hd⟩ := List.mem_filterMap.mp hd
  split at hd
  · cases hd
  next name hname =>
    split at hd
    · cases hd
    · cases hd
      exact ⟨rfl, rfl, .shown (.jobScalar hj hname)⟩

theorem blockScalarSingleLine_fits (hd : d ∈ blockScalarSingleLine w s) : d.Fits w := by
  obtain ⟨p, hp, hd⟩ := List.mem_filterMap.mp hd
  split at hd
  next pointer t =>
    split at hd
    · cases hd
    · cases hd
      refine ⟨rfl, rfl, .shown (.node ?_)⟩
      rw [w.source.pointers_eq]
      exact List.mem_map_of_mem hp
  · cases hd

theorem anchorsFrom_fits {passed : List String} {nodes : List (String × Node)}
    (hn : ∀ p ∈ nodes, w.Shows p.1) (hd : d ∈ anchorsFrom passed nodes) : d.Fits w := by
  induction nodes generalizing passed with
  | nil => cases hd
  | cons p rest ih =>
    obtain ⟨hp, hrest⟩ := List.forall_mem_cons.mp hn
    rw [anchorsFrom] at hd
    split at hd
    · exact ih hrest hd
    · split at hd
      · exact ih hrest hd
      · rcases List.mem_cons.mp hd with rfl | hd
        · exact ⟨rfl, rfl, .shown hp⟩
        · exact ih hrest hd

theorem anchorUsage_fits (hd : d ∈ anchorUsage w s) : d.Fits w := by
  refine anchorsFrom_fits (fun p hp => .node ?_) hd
  rw [w.source.pointers_eq]
  exact List.mem_map_of_mem hp

theorem ifExpressionWrapper_fits (hd : d ∈ ifExpressionWrapper w s) : d.Fits w := by
  obtain ⟨p, hp, hd⟩ := List.mem_filterMap.mp hd
  simp only at hd
  split at hd
  · cases hd
  · cases hd
    exact ⟨rfl, rfl, .shown (shows_of_scalars "if" (fun _ => rfl) (fun _ => rfl) hp)⟩

theorem mem_of_mem_misplacedFrom {canonical keys : List String} {highest : Option String}
    {p : String × String} (h : p ∈ misplacedFrom canonical highest keys) : p.1 ∈ keys := by
  induction keys generalizing highest with
  | nil => cases highest <;> cases h
  | cons key rest ih =>
    cases highest with
    | none =>
      rw [misplacedFrom] at h
      exact .tail _ (ih h)
    | some top =>
      rw [misplacedFrom] at h
      split at h
      · rcases List.mem_cons.mp h with rfl | h
        · exact .head _
        · exact .tail _ (ih h)
      · exact .tail _ (ih h)

/-- What is said about the order of keys is said of keys that the mapping has and the order names.
-/
theorem orderDrafts_fits {canonical : List String} {m : Mapping} {path part : String}
    (h : ∀ key n, m.get? key = some n → key ∈ canonical → w.Place (Pointer.child path key))
    (hd : d ∈ orderDrafts canonical m path part) : d.Fits w := by
  obtain ⟨⟨key, highest⟩, hp, rfl⟩ := List.mem_map.mp hd
  obtain ⟨there, known⟩ := List.mem_filter.mp (mem_of_mem_misplacedFrom hp)
  obtain ⟨e, he, same⟩ := List.mem_map.mp there
  have found : (m.entry? key).isSome := List.find?_isSome.mpr ⟨e, he, by simpa using same⟩
  obtain ⟨entry, hentry⟩ := Option.isSome_iff_exists.mp found
  exact ⟨rfl, rfl, h key entry.2 (by rw [Mapping.get?, hentry]; rfl) (List.contains_iff_mem.mp known)⟩

theorem keyOrder_fits (hd : d ∈ keyOrder w s) : d.Fits w := by
  rcases List.mem_append.mp hd with hd | hd
  · split at hd
    · exact orderDrafts_fits (fun _ _ _ known => .rootPart _ known) hd
    · cases hd
  · obtain ⟨j, hj, hd⟩ := List.mem_flatMap.mp hd
    rcases List.mem_append.mp hd with hd | hd
    · exact orderDrafts_fits (fun _ _ found _ => .shown (.jobPart hj found)) hd
    · obtain ⟨st, hst, hd⟩ := List.mem_flatMap.mp hd
      have step : (j, st) ∈ w.steps := mem_steps.mpr ⟨hj, hst⟩
      exact orderDrafts_fits (fun _ _ found _ => .shown (.stepPart step found)) hd

theorem stepNameMissing_fits (hd : d ∈ stepNameMissing w s) : d.Fits w := by
  obtain ⟨⟨j, st⟩, hst, hd⟩ := List.mem_filterMap.mp hd
  simp only at hd
  split at hd
  · cases hd
  · cases hd
    exact ⟨rfl, rfl, .shown (.step hst)⟩

theorem rules_fit : ∀ r ∈ rules, r.Fits := by
  simp only [rules, List.forall_mem_cons]
  exact ⟨.total fun _ _ _ => nameCasing_fits, .total fun _ _ _ => identifierCase_fits,
    .total fun _ _ _ => matrixJobName_fits, .total fun _ _ _ => blockScalarSingleLine_fits,
    .total fun _ _ _ => anchorUsage_fits, .total fun _ _ _ => ifExpressionWrapper_fits,
    .total fun _ _ _ => keyOrder_fits, .total fun _ _ _ => stepNameMissing_fits,
    fun _ h => nomatch h⟩

end FlowLint.Style
