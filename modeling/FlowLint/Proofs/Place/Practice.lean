import FlowLint.Proofs.Place
import FlowLint.Rule.Practice

/-! The drafts of the rules about good practice fit every workflow. -/

namespace FlowLint.Practice

open FlowLint.Tree (Node Pointer.child text?)

variable {w : Workflow} {s : Settings} {d : Draft}

theorem pushBranchFilter_fits (hd : d ∈ pushBranchFilter w s) : d.Fits w := by
  unfold pushBranchFilter at hd
  split at hd
  · cases hd
  next t ht =>
    split at hd
    · cases hd
    · rw [List.mem_singleton.mp hd]
      exact ⟨rfl, rfl, .shown (.trigger (Workflow.trigger?_mem ht))⟩

theorem scheduleNotification_fits (hd : d ∈ scheduleNotification w s) : d.Fits w := by
  unfold scheduleNotification at hd
  split at hd
  · cases hd
  next t ht =>
    split at hd
    · cases hd
    · rw [List.mem_singleton.mp hd]
      exact ⟨rfl, rfl, .shown (.trigger (Workflow.trigger?_mem ht))⟩

theorem nativeCache_fits (hd : d ∈ nativeCache w s) : d.Fits w := by
  obtain ⟨j, hj, hd⟩ := List.mem_flatMap.mp hd
  split at hd
  · cases hd
  · obtain ⟨st, hst, rfl⟩ := List.mem_map.mp hd
    exact ⟨rfl, rfl, .shown (.step (mem_steps.mpr ⟨hj, (List.mem_filter.mp hst).1⟩))⟩

theorem noRetention_fits {limit : Nat} {j : Job} {st : Step} (hst : (j, st) ∈ w.steps)
    (h : noRetention j st limit = .ok d) : d.Fits w := by
  unfold noRetention Text.Integer.write at h
  split at h
  · cases h
  · cases h
    exact ⟨rfl, rfl, .shown (.step hst)⟩

theorem retentionOf_fits {limit : Nat} {j : Job} {st : Step} (hst : (j, st) ∈ w.steps)
    (h : retentionOf limit j st = .ok (some d)) : d.Fits w := by
  unfold retentionOf at h
  split at h
  · cases h
  · split at h
    · cases made : noRetention j st limit with
      | ok d' =>
        rw [made] at h
        cases h
        exact noRetention_fits hst made
      | error fault =>
        rw [made] at h
        cases h
    next node hnode =>
      obtain ⟨m, hm⟩ := Step.input_eq_some hnode
      split at h
      · cases h
      · split at h
        · cases h
        · split at h
          · cases h
          · split at h
            · cases h
              exact ⟨rfl, rfl, .below _ "retention-days" (.stepPart hst hm)⟩
            · cases h

theorem retentionsOf_fits {limit : Nat} {steps : List (Job × Step)} (hs : steps ⊆ w.steps)
    (hd : d ∈ (retentionsOf limit steps).drafts) : d.Fits w := by
  induction steps with
  | nil => cases hd
  | cons p rest ih =>
    obtain ⟨hp, hrest⟩ := List.cons_subset.mp hs
    rw [retentionsOf] at hd
    split at hd
    · cases hd
    next found hfound =>
      rcases List.mem_append.mp hd with hd | hd
      · rw [Option.mem_toList.mp hd] at hfound
        exact retentionOf_fits hp hfound
      · exact ih hrest hd

/-- A script is the text under a key of its step. -/
theorem mem_scripts {j : Job} {st : Step} {script : String} (h : (j, st, script) ∈ scripts w) :
    (j, st) ∈ w.steps ∧ ∃ run, scalarAt st.node "run" = some run := by
  obtain ⟨⟨j', st'⟩, hst, h⟩ := List.mem_filterMap.mp h
  obtain ⟨run, hrun, heq⟩ := Option.map_eq_some_iff.mp h
  cases heq
  exact ⟨hst, run, hrun⟩

theorem workingDirectory_fits (hd : d ∈ workingDirectory w s) : d.Fits w := by
  obtain ⟨⟨j, st, script⟩, hp, hd⟩ := List.mem_filterMap.mp hd
  obtain ⟨hst, run, hrun⟩ := mem_scripts hp
  simp only at hd
  split at hd
  · cases hd
    exact ⟨rfl, rfl, .shown (.stepScalar hst hrun)⟩
  · cases hd

theorem inlineScriptLength_fits (hd : d ∈ inlineScriptLength w s) : d.Fits w := by
  obtain ⟨⟨j, st, script⟩, hp, hd⟩ := List.mem_filterMap.mp hd
  obtain ⟨hst, run, hrun⟩ := mem_scripts hp
  simp only at hd
  split at hd
  · cases hd
    exact ⟨rfl, rfl, .shown (.stepScalar hst hrun)⟩
  · cases hd

theorem checkoutCredentials_fits (hd : d ∈ checkoutCredentials w s) : d.Fits w := by
  obtain ⟨⟨j, st⟩, hst, hd⟩ := List.mem_filterMap.mp hd
  simp only at hd
  split at hd
  · cases hd
  · cases hd
    exact ⟨rfl, rfl, .shown (.step hst)⟩

theorem rules_fit : ∀ r ∈ rules, r.Fits := by
  simp only [rules, List.forall_mem_cons]
  exact ⟨.total fun _ _ _ => pushBranchFilter_fits, .total fun _ _ _ => scheduleNotification_fits,
    .total fun _ _ _ => nativeCache_fits, fun _ _ _ => retentionsOf_fits (List.Subset.refl _),
    .total fun _ _ _ => workingDirectory_fits, .total fun _ _ _ => inlineScriptLength_fits,
    .total fun _ _ _ => checkoutCredentials_fits, fun _ h => nomatch h⟩

end FlowLint.Practice
