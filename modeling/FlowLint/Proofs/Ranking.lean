import FlowLint.Proofs.Sorting
import FlowLint.Ranking
import Mathlib.Data.String.Basic

/-! The ranking of findings. Findings of different rules never rank the same, so what `merge` makes
of some results is determined by what each rule found (`merge_congr`), and the findings of some
rules among all of them are the findings of these rules merged by themselves (`filter_merge`). -/

namespace FlowLint

namespace Finding

theorem ranks_before : Ranks Finding.before where
  asymm f g h := by
    simp only [before, Bool.or_eq_true, Bool.and_eq_true, decide_eq_true_eq, beq_iff_eq] at h
    simp only [before, Bool.or_eq_false_iff, Bool.and_eq_false_iff, decide_eq_false_iff_not,
      beq_eq_false_iff_ne]
    rcases h with h | ⟨h, h' | ⟨h', h''⟩⟩
    · exact ⟨by omega, .inl (by omega)⟩
    · exact ⟨by omega, .inr ⟨by omega, .inl (by omega)⟩⟩
    · exact ⟨by omega, .inr ⟨by omega, .inr (String.lt_asymm h'')⟩⟩
  between f g k h := by
    simp only [before, Bool.or_eq_true, Bool.and_eq_true, decide_eq_true_eq, beq_iff_eq] at h ⊢
    rcases Nat.lt_trichotomy f.severity.rank g.severity.rank with hr | hr | hr
    · exact .inl (.inl hr)
    · rcases Int.lt_trichotomy f.order g.order with ho | ho | ho
      · exact .inl (.inr ⟨hr, .inl ho⟩)
      · rw [← hr, ← ho]
        rcases h with h | ⟨h, h' | ⟨h', h''⟩⟩
        · exact .inr (.inl h)
        · exact .inr (.inr ⟨h, .inl h'⟩)
        · rcases lt_or_ge f.ruleId g.ruleId with hi | hi
          · exact .inl (.inr ⟨rfl, .inr ⟨rfl, hi⟩⟩)
          · exact .inr (.inr ⟨h, .inr ⟨h', lt_of_le_of_lt hi h''⟩⟩)
      · rw [← hr]
        rcases h with h | ⟨h, h' | ⟨h', -⟩⟩
        · exact .inr (.inl h)
        · exact .inr (.inr ⟨h, .inl (by omega)⟩)
        · exact .inr (.inr ⟨h, .inl (by omega)⟩)
    · rcases h with h | ⟨h, -⟩
      · exact .inr (.inl (by omega))
      · exact .inr (.inl (by omega))

/-- Findings that rank the same are of one rule. -/
theorem ruleId_eq_of_tie (f g : Finding) (h : before f g = false) (h' : before g f = false) :
    f.ruleId = g.ruleId := by
  simp only [before, Bool.or_eq_false_iff, Bool.and_eq_false_iff, decide_eq_false_iff_not,
    beq_eq_false_iff_ne] at h h'
  rcases h with ⟨h1, h | ⟨h2, h | h⟩⟩
  · omega
  · omega
  · rcases h' with ⟨h1', h' | ⟨h2', h' | h'⟩⟩
    · omega
    · omega
    · exact le_antisymm (not_lt.mp h') (not_lt.mp h)

theorem isDuplicate_ruleId {f g : Finding} (h : f.isDuplicate g = true) : f.ruleId = g.ruleId := by
  simp only [isDuplicate, Bool.and_eq_true, beq_iff_eq] at h
  exact h.1

end Finding

/-- The findings of some rules have their duplicates among themselves. -/
theorem filter_firstOfEach (p : String → Bool) (l : List Finding) :
    (firstOfEach l).filter (fun f => p f.ruleId) =
      firstOfEach (l.filter fun f => p f.ruleId) := by
  induction l with
  | nil => rfl
  | cons f rest ih =>
    rw [firstOfEach, List.filter_cons, List.filter_cons, List.filter_filter]
    split
    next hf =>
      rw [firstOfEach, ← ih, List.filter_filter]
      simp only [Bool.and_comm]
    next hf =>
      rw [← ih]
      refine List.filter_congr fun g hg => ?_
      -- a duplicate of `f` is of the rule of `f`, whose findings are all dropped
      cases hd : f.isDuplicate g
      · simp
      · simp [← Finding.isDuplicate_ruleId hd, hf]

theorem mem_of_mem_firstOfEach {f : Finding} {l : List Finding} (h : f ∈ firstOfEach l) :
    f ∈ l := by
  induction l with
  | nil => exact h
  | cons g rest ih =>
    rcases List.mem_cons.mp h with rfl | h
    · exact List.mem_cons_self
    · exact List.mem_cons_of_mem _ (ih (List.mem_of_mem_filter h))

/-- A finding that is dropped has a duplicate that is kept. -/
theorem exists_mem_firstOfEach {f : Finding} {l : List Finding} (h : f ∈ l) :
    ∃ g ∈ firstOfEach l, g.isDuplicate f = true := by
  induction l with
  | nil => cases h
  | cons g rest ih =>
    rw [firstOfEach]
    rcases List.mem_cons.mp h with rfl | h
    · exact ⟨f, List.mem_cons_self, by simp [Finding.isDuplicate]⟩
    · obtain ⟨k, hk, same⟩ := ih h
      cases dropped : g.isDuplicate k with
      | false =>
        have kept : k ∈ (firstOfEach rest).filter (!g.isDuplicate ·) :=
          List.mem_filter.mpr ⟨hk, by simp [dropped]⟩
        exact ⟨k, List.mem_cons_of_mem _ kept, same⟩
      | true =>
        refine ⟨g, List.mem_cons_self, ?_⟩
        simp only [Finding.isDuplicate, Bool.and_eq_true, beq_iff_eq] at same dropped ⊢
        exact ⟨dropped.1.trans same.1, dropped.2.trans same.2⟩

theorem pairwise_firstOfEach (l : List Finding) :
    (firstOfEach l).Pairwise fun f g => f.isDuplicate g = false := by
  induction l with
  | nil => exact .nil
  | cons f rest ih =>
    refine List.pairwise_cons.mpr ⟨fun g hg => ?_, ih.filter _⟩
    exact (Bool.not_eq_true' _).mp (List.mem_filter.mp hg).2

/-- No two findings of the ranked list are duplicates. -/
theorem pairwise_merge (results : List RuleResult) :
    (merge results).Pairwise fun f g => f.isDuplicate g = false := by
  refine ((sortOrdered_perm _ _).pairwise_iff fun {f g} h => ?_).mpr (pairwise_firstOfEach _)
  simp only [Finding.isDuplicate, Bool.and_eq_false_iff, beq_eq_false_iff_ne] at h ⊢
  exact h.imp Ne.symm Ne.symm

/-- A place is named once by the findings of one rule in the ranked list. -/
theorem nodup_locations (results : List RuleResult) (id : String) :
    (((merge results).filter (·.ruleId == id)).map (·.location)).Nodup := by
  refine List.pairwise_map.mpr (((pairwise_merge results).filter _).imp_of_mem
    fun {f g} hf hg differ same => ?_)
  have ruleId : f.ruleId = g.ruleId :=
    (beq_iff_eq.mp (List.mem_filter.mp hf).2).trans (beq_iff_eq.mp (List.mem_filter.mp hg).2).symm
  simp [Finding.isDuplicate, ruleId, same] at differ

/-- What was found is in the ranked list, or another finding of its rule for its place is. -/
theorem exists_mem_merge {r : RuleResult} {results : List RuleResult} (hr : r ∈ results)
    {f : Finding} (hf : f ∈ r.findings) :
    ∃ g ∈ merge results, g.ruleId = f.ruleId ∧ g.location = f.location := by
  have found : f ∈ results.flatMap (·.findings) := List.mem_flatMap.mpr ⟨r, hr, hf⟩
  obtain ⟨g, hg, same⟩ := exists_mem_firstOfEach found
  simp only [Finding.isDuplicate, Bool.and_eq_true, beq_iff_eq] at same
  exact ⟨g, by rwa [merge, mem_sortOrdered], same⟩

/-- What is in the ranked list was found. -/
theorem mem_of_mem_merge {f : Finding} {results : List RuleResult} (h : f ∈ merge results) :
    ∃ r ∈ results, f ∈ r.findings := by
  rw [merge, mem_sortOrdered] at h
  simpa using mem_of_mem_firstOfEach h

theorem inOrder_merge (results : List RuleResult) : InOrder Finding.before (merge results) :=
  inOrder_sortOrdered Finding.ranks_before _

/-- The findings of some rules, merged, are those of the rules among all findings, merged. -/
theorem filter_merge_eq (p : String → Bool) (results : List RuleResult) :
    (merge results).filter (fun f => p f.ruleId) = sortOrdered Finding.before
      (firstOfEach ((results.flatMap (·.findings)).filter fun f => p f.ruleId)) := by
  rw [merge, filter_sortOrdered Finding.ranks_before, filter_firstOfEach]

/-- The ranked list depends only on what was found under the name of each rule. -/
theorem merge_congr {results results' : List RuleResult}
    (h : ∀ id, (results.flatMap (·.findings)).filter (·.ruleId = id) =
      (results'.flatMap (·.findings)).filter (·.ruleId = id)) : merge results = merge results' := by
  refine sortOrdered_congr (f := Finding.ruleId) Finding.ranks_before Finding.ruleId_eq_of_tie
    fun id => ?_
  rw [filter_firstOfEach fun x => decide (x = id), filter_firstOfEach fun x => decide (x = id), h]

/-- All findings of the result bear the name of its rule. -/
def RuleResult.IsStamped (r : RuleResult) : Prop := ∀ f ∈ r.findings, f.ruleId = r.ruleId

/-- The findings under some names are those of the results with these names. -/
theorem filter_flatMap_findings (p : String → Bool) {results : List RuleResult}
    (h : ∀ r ∈ results, r.IsStamped) :
    (results.flatMap (·.findings)).filter (fun f => p f.ruleId) =
      (results.filter fun r => p r.ruleId).flatMap (·.findings) := by
  induction results with
  | nil => rfl
  | cons r rest ih =>
    rw [List.flatMap_cons, List.filter_append, ih fun r' hr' => h r' (by simp [hr']),
      List.filter_cons]
    have own : r.findings.filter (fun f => p f.ruleId) = if p r.ruleId then r.findings else [] := by
      have hr : r.IsStamped := h r (by simp)
      split
      next hp => exact List.filter_eq_self.mpr fun f hf => by rw [hr f hf, hp]
      next hp => exact List.filter_eq_nil_iff.mpr fun f hf => by rw [hr f hf]; exact hp
    rw [own]
    split <;> simp

/-- The findings of some rules in the ranked list are those of the rules by themselves. -/
theorem filter_merge (p : String → Bool) {results : List RuleResult}
    (h : ∀ r ∈ results, r.IsStamped) :
    (merge results).filter (fun f => p f.ruleId) = merge (results.filter fun r => p r.ruleId) := by
  rw [filter_merge_eq, filter_flatMap_findings p h, merge]

/-- Two lists whose members have names of their own have the same members of each name if one is
the other in a different order. -/
theorem filter_ruleId_of_perm {results results' : List RuleResult} (h : results.Perm results')
    (distinct : (results.map (·.ruleId)).Nodup) (id : String) :
    results.filter (·.ruleId = id) = results'.filter (·.ruleId = id) := by
  have few : (results.filter (·.ruleId = id)).length ≤ 1 := by
    have count := List.nodup_iff_count.mp distinct id
    rw [List.count_eq_countP, List.countP_map, List.countP_eq_length_filter] at count
    simpa [Function.comp_def, Bool.beq_eq_decide_eq] using count
  have perm := h.filter (·.ruleId = id)
  rcases Nat.le_one_iff_eq_zero_or_eq_one.mp few with none | one
  · rw [List.length_eq_zero_iff] at none
    rw [none] at perm ⊢
    exact perm.nil_eq
  · obtain ⟨r, hr⟩ := List.length_eq_one_iff.mp one
    rw [hr] at perm ⊢
    exact List.singleton_perm.mp perm

/-- The order of the rules makes no difference. -/
theorem merge_perm {results results' : List RuleResult} (h : results.Perm results')
    (distinct : (results.map (·.ruleId)).Nodup) (stamped : ∀ r ∈ results, r.IsStamped) :
    merge results = merge results' := by
  refine merge_congr fun id => ?_
  rw [filter_flatMap_findings (fun x => decide (x = id)) stamped,
    filter_flatMap_findings (fun x => decide (x = id)) fun r hr => stamped r (h.mem_iff.mpr hr),
    filter_ruleId_of_perm h distinct]

end FlowLint
