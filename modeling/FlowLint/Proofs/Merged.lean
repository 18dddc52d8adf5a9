import FlowLint.Proofs.Ranking
import Mathlib.Data.Prod.Lex

/-! What the ranked list holds. Of the findings of one rule for one place it has the first and no
other; it goes by severity, order and name of the rule, and findings that agree in all three stand
as they were found (`merge_ranked`). -/

namespace FlowLint

namespace Finding

/-- The finding is one of the rule `id` for the place. -/
def isOf (id place : String) (f : Finding) : Bool := f.ruleId == id && f.location == place

/-- How many findings come before the first one of the same rule for the same place. -/
def firstIndex (found : List Finding) (f : Finding) : Nat :=
  found.findIdx (·.isOf f.ruleId f.location)

/-- What the ranking goes by, ordered like the words of a dictionary. -/
def lexKey (f : Finding) : Nat ×ₗ Int ×ₗ String := toLex (f.key.1, toLex f.key.2)

theorem before_iff_lexKey_lt {f g : Finding} : f.before g = true ↔ f.lexKey < g.lexKey := by
  simp [before, lexKey, key, Prod.Lex.lt_iff]

theorem isOf_eq_isDuplicate (f g : Finding) : f.isOf g.ruleId g.location = f.isDuplicate g := rfl

/-- Findings of one rule for one place are duplicates of each other. -/
theorem isDuplicate_of_isOf {id place : String} {f g : Finding} (hf : f.isOf id place = true)
    (hg : g.isOf id place = true) : f.isDuplicate g = true := by
  simp only [isOf, Bool.and_eq_true, beq_iff_eq] at hf hg
  simp [isDuplicate, hf, hg]

/-- A duplicate is of the same rule for the same place. -/
theorem isOf_of_isDuplicate {id place : String} {f g : Finding} (h : f.isDuplicate g = true) :
    f.isOf id place = g.isOf id place := by
  simp only [isDuplicate, Bool.and_eq_true, beq_iff_eq] at h
  simp only [isOf, h.1, h.2]

theorem firstIndex_cons_self (f : Finding) (found : List Finding) :
    f.firstIndex (f :: found) = 0 := by
  rw [firstIndex, List.findIdx_cons]
  simp [isOf]

theorem firstIndex_cons_of_other {f g : Finding} (h : f.isDuplicate g = false)
    (found : List Finding) : g.firstIndex (f :: found) = g.firstIndex found + 1 := by
  rw [firstIndex, List.findIdx_cons, isOf_eq_isDuplicate, h]
  rfl

end Finding

/-- What is kept of the findings of one rule for one place is the first of them. -/
theorem filter_isOf_firstOfEach (id place : String) (l : List Finding) :
    (firstOfEach l).filter (·.isOf id place) = (l.find? (·.isOf id place)).toList := by
  induction l with
  | nil => rfl
  | cons f rest ih =>
    rw [firstOfEach, List.find?_cons, List.filter_cons, List.filter_filter]
    cases here : f.isOf id place with
    | true =>
      have none_left : (firstOfEach rest).filter
          (fun g => g.isOf id place && !f.isDuplicate g) = [] := by
        refine List.filter_eq_nil_iff.mpr fun g _ => ?_
        cases other : g.isOf id place with
        | false => simp
        | true => simp [Finding.isDuplicate_of_isOf here other]
      simp [none_left]
    | false =>
      have all_left : (firstOfEach rest).filter (fun g => g.isOf id place && !f.isDuplicate g) =
          (firstOfEach rest).filter (·.isOf id place) := by
        refine List.filter_congr fun g _ => ?_
        cases same : f.isDuplicate g with
        | false => simp
        | true => simp [← Finding.isOf_of_isDuplicate same, here]
      simpa [all_left] using ih

/-- What is kept stands in the order of the input. -/
theorem pairwise_firstIndex_firstOfEach (l : List Finding) :
    (firstOfEach l).Pairwise fun f g => f.firstIndex l < g.firstIndex l := by
  induction l with
  | nil => exact .nil
  | cons f rest ih =>
    have other : ∀ g ∈ (firstOfEach rest).filter (!f.isDuplicate ·),
        g.firstIndex (f :: rest) = g.firstIndex rest + 1 := fun g hg =>
      Finding.firstIndex_cons_of_other (by simpa using (List.mem_filter.mp hg).2) rest
    refine List.pairwise_cons.mpr ⟨fun g hg => ?_, (ih.filter _).imp_of_mem fun hg hk lt => ?_⟩
    · rw [Finding.firstIndex_cons_self, other g hg]
      exact Nat.succ_pos _
    · rw [other _ hg, other _ hk]
      omega

/-- Findings without duplicates are all kept. -/
theorem firstOfEach_of_pairwise {l : List Finding}
    (h : l.Pairwise fun f g => f.isDuplicate g = false) : firstOfEach l = l := by
  induction l with
  | nil => rfl
  | cons f rest ih =>
    obtain ⟨hf, hrest⟩ := List.pairwise_cons.mp h
    rw [firstOfEach, ih hrest, List.filter_eq_self.mpr fun g hg => by simp [hf g hg]]

/-- Ranked findings are the grave ones and then the others. -/
theorem withSeverity_append {l : List Finding} (h : InOrder Finding.before l) :
    withSeverity .mustFix l ++ withSeverity .improvement l = l := by
  induction l with
  | nil => rfl
  | cons f rest ih =>
    obtain ⟨hf, hrest⟩ := List.pairwise_cons.mp h
    cases severity : f.severity with
    | mustFix =>
      have split := ih hrest
      simp only [withSeverity, List.filter_cons, severity] at split ⊢
      simpa using split
    | improvement =>
      have later : ∀ g ∈ f :: rest, g.severity = .improvement := by
        intro g hg
        rcases List.mem_cons.mp hg with rfl | hg
        · exact severity
        · cases grave : g.severity with
          | improvement => rfl
          | mustFix =>
            have := hf g hg
            simp [Finding.before, severity, grave, Severity.rank] at this
      have no_grave : withSeverity .mustFix (f :: rest) = [] :=
        List.filter_eq_nil_iff.mpr fun g hg => by simp [later g hg]
      have all_others : withSeverity .improvement (f :: rest) = f :: rest :=
        List.filter_eq_self.mpr fun g hg => by simp [later g hg]
      rw [no_grave, all_others, List.nil_append]

/-- Findings that are ranked and without duplicates are their own ranked list. -/
theorem merge_of_inOrder {results : List RuleResult} {l : List Finding}
    (found : results.flatMap (·.findings) = l) (order : InOrder Finding.before l)
    (apart : l.Pairwise fun f g => f.isDuplicate g = false) : merge results = l := by
  rw [merge, found, firstOfEach_of_pairwise apart, sortOrdered_of_inOrder order]

/-- Of all findings of one rule for one place, the ranked list holds the first and no other. It goes
by severity, order and name of the rule, and findings that agree in these stand in the order of the
input. So it is made up of the grave findings and the others behind them, and it is its own ranked
list. -/
theorem merge_ranked (results : List RuleResult) :
    (∀ id place, (merge results).filter (·.isOf id place) =
      ((results.flatMap (·.findings)).find? (·.isOf id place)).toList) ∧
    (merge results).Pairwise (fun f g => f.lexKey ≤ g.lexKey) ∧
    (merge results).Pairwise (fun f g => f.lexKey = g.lexKey →
      f.firstIndex (results.flatMap (·.findings)) < g.firstIndex (results.flatMap (·.findings))) ∧
    withSeverity .mustFix (merge results) ++ withSeverity .improvement (merge results) =
      merge results ∧
    ∀ again : List RuleResult, again.flatMap (·.findings) = merge results →
      merge again = merge results := by
  have order := inOrder_merge results
  refine ⟨fun id place => ?_, order.imp fun {f g} h => ?_, ?_, withSeverity_append order,
    fun again found => merge_of_inOrder found order (pairwise_merge results)⟩
  · rw [merge, filter_sortOrdered Finding.ranks_before, filter_isOf_firstOfEach]
    cases (results.flatMap (·.findings)).find? (·.isOf id place) <;> rfl
  · refine not_lt.mp fun lt => ?_
    rw [Finding.before_iff_lexKey_lt.mpr lt] at h
    cases h
  · refine (pairwise_sortOrdered (pairwise_firstIndex_firstOfEach _)).imp fun {f g} h tie => ?_
    refine h.resolve_left fun first => ?_
    exact (Finding.before_iff_lexKey_lt.mp first).ne tie

/-- A rule names a place twice, the second time as graver and further up; two findings of another
rule rank the same. -/
def foundTwice : List RuleResult := [
  { ruleId := "b"
    findings := [
      { ruleId := "b", severity := .improvement, category := .orderingNaming, location := "/x"
        order := 2, title := "first" },
      { ruleId := "b", severity := .mustFix, category := .orderingNaming, location := "/y"
        order := 5, title := "other" },
      { ruleId := "b", severity := .mustFix, category := .orderingNaming, location := "/x"
        order := 0, title := "second" }] },
  { ruleId := "a"
    findings := [
      { ruleId := "a", severity := .improvement, category := .concurrency, location := "/z"
        order := 2, title := "tied" },
      { ruleId := "a", severity := .improvement, category := .concurrency, location := "/w"
        order := 2, title := "tied" }] }]

theorem merge_ranked_foundTwice :
    (merge foundTwice).map (fun f => (f.ruleId, f.location, f.title)) =
      [("b", "/y", "other"), ("a", "/z", "tied"), ("a", "/w", "tied"), ("b", "/x", "first")] ∧
    (merge foundTwice).filter (·.isOf "b" "/x") =
      ((foundTwice.flatMap (·.findings)).find? (·.isOf "b" "/x")).toList ∧
    merge [⟨"b", (merge foundTwice).take 1, none⟩, ⟨"a", (merge foundTwice).drop 1, none⟩] =
      merge foundTwice := by
  obtain ⟨first, -, -, -, again⟩ := merge_ranked foundTwice
  refine ⟨by decide +kernel, first "b" "/x", again _ ?_⟩
  rw [List.flatMap_cons, List.flatMap_singleton, List.take_append_drop]

end FlowLint
