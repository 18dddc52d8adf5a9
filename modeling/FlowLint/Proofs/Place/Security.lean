import FlowLint.Proofs.Place
import FlowLint.Rule.Security

/-! The drafts of the rules about security and reliability fit every workflow. -/

namespace FlowLint.Security

open FlowLint.Tree (Node Mapping Pointer.child text?)

variable {w : Workflow} {s : Settings} {d : Draft}

theorem topLevelPermissions_fits (hd : d ∈ topLevelPermissions w s) : d.Fits w := by
  unfold topLevelPermissions at hd
  split at hd
  · cases hd
  · rw [List.mem_singleton.mp hd]
    exact ⟨rfl, rfl, .rootPart "permissions" (by decide)⟩

theorem writeAllPermissions_fits (hd : d ∈ writeAllPermissions w s) : d.Fits w := by
  obtain ⟨p, hp, rfl⟩ := List.mem_map.mp hd
  refine ⟨rfl, rfl, .shown ?_⟩
  rcases List.mem_append.mp (List.mem_filter.mp hp).1 with hp | hp
  · exact .permissions (Option.mem_toList.mp hp)
  · obtain ⟨j, hj, hp⟩ := List.mem_filterMap.mp hp
    obtain ⟨n, hn, path⟩ := Job.permissions_path hp
    exact path ▸ .jobPart hj hn

theorem runnerPinning_fits (hd : d ∈ runnerPinning w s) : d.Fits w := by
  obtain ⟨j, hj, hd⟩ := List.mem_flatMap.mp hd
  obtain ⟨label, hl, rfl⟩ := List.mem_map.mp hd
  exact ⟨rfl, rfl, .shown (.label hj (List.mem_filter.mp hl).1)⟩

theorem slimRunnerSecrets_fits (hd : d ∈ slimRunnerSecrets w s) : d.Fits w := by
  obtain ⟨j, hj, hd⟩ := List.mem_filterMap.mp hd
  split at hd
  · cases hd
  next pointer label hl =>
    split at hd
    · cases hd
    · cases hd
      exact ⟨rfl, rfl, .shown (.label hj (List.mem_of_find?_eq_some hl))⟩

theorem secretScope_fits (hd : d ∈ secretScope w s) : d.Fits w := by
  obtain ⟨r, hr, hd⟩ := List.mem_filterMap.mp hd
  split at hd
  · cases hd
    exact ⟨rfl, rfl, .shown (.secret hr)⟩
  · split at hd
    · cases hd
    · cases hd
      exact ⟨rfl, rfl, .shown (.secret hr)⟩
  · cases hd

theorem shellStrictMode_fits (hd : d ∈ shellStrictMode w s) : d.Fits w := by
  obtain ⟨⟨j, st⟩, hst, hd⟩ := List.mem_filterMap.mp hd
  simp only at hd
  split at hd
  · cases hd
  next run hrun =>
    split at hd
    · cases hd
    · split at hd
      · split at hd
        · cases hd
        · cases hd
          exact ⟨rfl, rfl, .shown (.stepScalar hst hrun)⟩
      · cases hd

theorem jobTimeout_fits (hd : d ∈ jobTimeout w s) : d.Fits w := by
  obtain ⟨j, hj, hd⟩ := List.mem_filterMap.mp hd
  split at hd
  · cases hd
  · split at hd
    · cases hd
      exact ⟨rfl, rfl, .shown (.job hj)⟩
    next node hnode =>
      split at hd
      · cases hd
      · split at hd
        · cases hd
        · cases hd
          exact ⟨rfl, rfl, .shown (.jobScalar hj hnode)⟩

theorem concurrencyRequired_fits (hd : d ∈ concurrencyRequired w s) : d.Fits w := by
  unfold concurrencyRequired at hd
  split at hd
  · cases hd
  · rw [List.mem_singleton.mp hd]
    exact ⟨rfl, rfl, .rootPart "concurrency" (by decide)⟩

/-- The name of a concurrency group stands at the block or at one of its keys. -/
theorem groupOf_place {pointer : String} (block : Node) (h : w.Shows pointer)
    (inner : pointer ≠ "") : w.Place (groupOf pointer block).1 := by
  cases block with
  | mapping o entries => exact .child "group" h fun root => absurd root inner
  | _ => exact .shown h

theorem concurrencyGroup_fits (hd : d ∈ concurrencyGroup w s) : d.Fits w := by
  obtain ⟨⟨pointer, block⟩, hb, hd⟩ := List.mem_filterMap.mp hd
  obtain ⟨n, hn, hd⟩ := Option.bind_eq_some_iff.mp hd
  obtain ⟨shown, inner⟩ : w.Shows pointer ∧ pointer ≠ "" := by
    rcases List.mem_cons.mp hb with heq | hb
    · cases heq
      exact ⟨.concurrency (by simp [hn]), by decide⟩
    · obtain ⟨j, hj, heq⟩ := List.mem_map.mp hb
      cases heq
      exact ⟨.jobPart hj hn, Tree.Pointer.child_ne_empty _ _⟩
  simp only at hd
  split at hd
  · cases hd
  · cases hd
    exact ⟨rfl, rfl, groupOf_place n shown inner⟩

theorem destructiveCommand_fits (hd : d ∈ destructiveCommand w s) : d.Fits w := by
  obtain ⟨⟨j, st⟩, hst, hd⟩ := List.mem_filterMap.mp hd
  simp only at hd
  split at hd
  · cases hd
  · obtain ⟨command, hc, rfl⟩ := Option.map_eq_some_iff.mp hd
    obtain ⟨run, hrun, -⟩ := Option.bind_eq_some_iff.mp hc
    exact ⟨rfl, rfl, .shown (.stepScalar hst hrun)⟩

theorem usesOf_shown {j : Job} {p : String × String} (hj : j ∈ w.jobs) (hp : p ∈ usesOf j) :
    w.Shows p.1 := by
  rcases List.mem_append.mp hp with hp | hp
  · obtain ⟨u, hu, rfl⟩ := Option.map_eq_some_iff.mp (Option.mem_toList.mp hp)
    exact .jobScalar hj hu
  · obtain ⟨st, hst, hp⟩ := List.mem_filterMap.mp hp
    obtain ⟨u, hu, rfl⟩ := Option.map_eq_some_iff.mp hp
    exact .stepScalar (mem_steps.mpr ⟨hj, hst⟩) hu

theorem actionRefPinning_fits (hd : d ∈ actionRefPinning w s) : d.Fits w := by
  obtain ⟨p, hp, hd⟩ := List.mem_filterMap.mp hd
  obtain ⟨j, hj, hp⟩ := List.mem_flatMap.mp hp
  simp only at hd
  split at hd
  · cases hd
  · obtain ⟨title, -, rfl⟩ := Option.map_eq_some_iff.mp hd
    exact ⟨rfl, rfl, .shown (usesOf_shown hj hp)⟩

theorem scriptInjection_fits (hd : d ∈ scriptInjection w s) : d.Fits w := by
  obtain ⟨⟨j, st⟩, hst, hd⟩ := List.mem_filterMap.mp hd
  obtain ⟨expression, he, rfl⟩ := Option.map_eq_some_iff.mp hd
  obtain ⟨run, hrun, -⟩ := Option.bind_eq_some_iff.mp he
  exact ⟨rfl, rfl, .shown (.stepScalar hst hrun)⟩

theorem exists_input_of_any {st : Step} {key : String} {p : String → Bool}
    (h : (text? (st.input key)).any p = true) : ∃ m, st.node.get? "with" = some m := by
  cases found : st.input key with
  | none =>
    rw [found] at h
    cases h
  | some n => exact Step.input_eq_some found

theorem untrustedCheckout_fits (hd : d ∈ untrustedCheckout w s) : d.Fits w := by
  unfold untrustedCheckout at hd
  split at hd
  · cases hd
  · obtain ⟨⟨j, st⟩, hst, hd⟩ := List.mem_filterMap.mp hd
    simp only at hd
    split at hd
    next fromHead =>
      cases hd
      simp only [Bool.and_eq_true, Bool.or_eq_true] at fromHead
      obtain ⟨m, hm⟩ := fromHead.2.elim exists_input_of_any exists_input_of_any
      exact ⟨rfl, rfl, .shown (.stepPart hst hm)⟩
    · cases hd

theorem noJobs_fits (hd : d ∈ noJobs w s) : d.Fits w := by
  unfold noJobs at hd
  split at hd
  · cases hd
  · rw [List.mem_singleton.mp hd]
    exact ⟨rfl, rfl, .rootPart "jobs" (by decide)⟩

theorem rules_fit : ∀ r ∈ rules, r.Fits := by
  simp only [rules, List.forall_mem_cons]
  exact ⟨.total fun _ _ _ => topLevelPermissions_fits, .total fun _ _ _ => writeAllPermissions_fits,
    .total fun _ _ _ => runnerPinning_fits, .total fun _ _ _ => slimRunnerSecrets_fits,
    .total fun _ _ _ => secretScope_fits, .total fun _ _ _ => shellStrictMode_fits,
    .total fun _ _ _ => jobTimeout_fits, .total fun _ _ _ => concurrencyRequired_fits,
    .total fun _ _ _ => concurrencyGroup_fits, .total fun _ _ _ => destructiveCommand_fits,
    .total fun _ _ _ => actionRefPinning_fits, .total fun _ _ _ => scriptInjection_fits,
    .total fun _ _ _ => untrustedCheckout_fits, .total fun _ _ _ => noJobs_fits,
    fun _ h => nomatch h⟩

end FlowLint.Security
