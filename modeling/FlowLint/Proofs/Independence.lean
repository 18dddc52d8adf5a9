import FlowLint.Catalog
import FlowLint.Proofs.Place.Practice
import FlowLint.Proofs.Place.Security
import FlowLint.Proofs.Place.Style
import FlowLint.Proofs.Ranking
import Mathlib.Data.List.Nodup

/-! The rules of the catalog do not depend on each other. Each rule stamps its findings with its
own name and no two rules have the same name, so whatever rules are evaluated, in whatever order,
the ranked list shows what each rule found in the same way. -/

namespace FlowLint

namespace Catalog

theorem rules_fit : ∀ r ∈ rules, r.Fits := by
  intro r hr
  simp only [rules, List.mem_append] at hr
  rcases hr with (hr | hr) | hr
  · exact Security.rules_fit r hr
  · exact Practice.rules_fit r hr
  · exact Style.rules_fit r hr

theorem nodup_ids : (rules.map (·.id)).Nodup := by decide +kernel

theorem mem_of_rule? {id : String} {r : Rule} (h : rule? id = some r) : r ∈ rules :=
  List.mem_of_find?_eq_some h

/-- A rule of the catalog is known by its name. -/
theorem eq_of_id_eq {r r' : Rule} (hr : r ∈ rules) (hr' : r' ∈ rules) (h : r.id = r'.id) :
    r = r' := List.inj_on_of_nodup_map nodup_ids hr hr' h

theorem isStamped_evaluate {r : Rule} (hr : r ∈ rules) (w : Workflow) (s : Settings) :
    (r.evaluate w s).IsStamped := fun _ hf => (rules_fit r hr).ruleId hf

theorem isStamped_evaluateAll {S : List Rule} (hS : S ⊆ rules) {w : Workflow} {s : Settings} :
    ∀ result ∈ Rule.evaluateAll S w s, result.IsStamped := by
  intro result h
  obtain ⟨r, hr, rfl⟩ := List.mem_map.mp h
  exact isStamped_evaluate (hS hr) w s

theorem nodup_ruleIds {S : List Rule} (hS : S ⊆ rules) (distinct : S.Nodup) (w : Workflow)
    (s : Settings) : ((Rule.evaluateAll S w s).map (·.ruleId)).Nodup := by
  have ids : (Rule.evaluateAll S w s).map (·.ruleId) = S.map (·.id) := by
    simp [Rule.evaluateAll, Rule.evaluate, Function.comp_def]
  rw [ids]
  exact distinct.map_on fun r hr r' hr' h => eq_of_id_eq (hS hr) (hS hr') h

/-- In the ranked list of all rules, a rule names the places of its drafts. -/
theorem mem_locations_iff {r : Rule} (hr : r ∈ rules) {w : Workflow} {s : Settings} {p : String} :
    p ∈ ((merge (Rule.evaluateAll rules w s)).filter (·.ruleId == r.id)).map (·.location) ↔
      ∃ d ∈ (r.check w s).drafts, d.location = p := by
  simp only [List.mem_map, List.mem_filter, beq_iff_eq]
  constructor
  · rintro ⟨f, ⟨hf, own⟩, rfl⟩
    obtain ⟨result, evaluated, found⟩ := mem_of_mem_merge hf
    obtain ⟨r', hr', rfl⟩ := List.mem_map.mp evaluated
    have same : r' = r := eq_of_id_eq hr' hr ((isStamped_evaluate hr' w s f found).symm.trans own)
    subst same
    obtain ⟨d, hd, rfl⟩ := List.mem_map.mp found
    exact ⟨d, hd, rfl⟩
  · rintro ⟨d, hd, rfl⟩
    have found : r.stamp w d ∈ (r.evaluate w s).findings := List.mem_map_of_mem hd
    have evaluated : r.evaluate w s ∈ Rule.evaluateAll rules w s := List.mem_map_of_mem hr
    obtain ⟨g, hg, ruleId, location⟩ := exists_mem_merge evaluated found
    exact ⟨g, ⟨hg, ruleId.trans (isStamped_evaluate hr w s _ found)⟩, location⟩

/-- Rules of the catalog are, in some order, those that bear their names. -/
theorem perm_filter_ids {S : List Rule} (hS : S ⊆ rules) (distinct : S.Nodup) :
    S.Perm (rules.filter fun r => (S.map (·.id)).contains r.id) := by
  have nodup : rules.Nodup := List.Nodup.of_map _ nodup_ids
  refine (List.perm_ext_iff_of_nodup distinct (nodup.filter _)).mpr fun r => ?_
  simp only [List.mem_filter, List.contains_iff_mem, List.mem_map]
  constructor
  · intro hr
    exact ⟨hS hr, r, hr, rfl⟩
  · rintro ⟨hr, r', hr', same⟩
    exact eq_of_id_eq (hS hr') hr same ▸ hr'

end Catalog

/-- A rule's findings in the ranked list are its findings ranked by themselves, whatever results
with other names stand before and behind. -/
theorem filter_merge_result {result : RuleResult} (h : result.IsStamped)
    {earlier later : List RuleResult}
    (others : ∀ o ∈ earlier ++ later, o.IsStamped ∧ o.ruleId ≠ result.ruleId) :
    (merge (earlier ++ result :: later)).filter (·.ruleId == result.ruleId) = merge [result] := by
  have stamped : ∀ o ∈ earlier ++ result :: later, o.IsStamped := by
    intro o ho
    rcases List.mem_append.mp ho with ho | ho
    · exact (others o (by simp [ho])).1
    · rcases List.mem_cons.mp ho with rfl | ho
      · exact h
      · exact (others o (by simp [ho])).1
  have dropped : ∀ l, l ⊆ earlier ++ later → l.filter (·.ruleId == result.ruleId) = [] := by
    intro l hl
    refine List.filter_eq_nil_iff.mpr fun o ho => ?_
    simpa using (others o (hl ho)).2
  rw [filter_merge (· == result.ruleId) stamped, List.filter_append, List.filter_cons,
    dropped earlier (List.subset_append_left _ _), dropped later (List.subset_append_right _ _)]
  simp

/-- What some rules of the catalog find, evaluated in any order, is the part of what all rules find
that bears their names, in the same order; the order of evaluation makes no difference; and neither
do the other results, be they there or not, broken off or not. -/
theorem merge_evaluateAll_eq_filter {S : List Rule} (distinct : S.Nodup) (hS : S ⊆ Catalog.rules)
    (w : Workflow) (s : Settings) :
    merge (Rule.evaluateAll S w s) =
        (merge (Rule.evaluateAll Catalog.rules w s)).filter
          (fun f => (S.map (·.id)).contains f.ruleId) ∧
      (∀ T, T.Perm S → merge (Rule.evaluateAll T w s) = merge (Rule.evaluateAll S w s)) ∧
      ∀ r ∈ S, ∀ earlier later : List RuleResult,
        (∀ o ∈ earlier ++ later, o.IsStamped ∧ o.ruleId ≠ r.id) →
          (merge (earlier ++ r.evaluate w s :: later)).filter (·.ruleId == r.id) =
            merge [r.evaluate w s] := by
  refine ⟨?_, fun T hT => ?_, fun r hr earlier later others => ?_⟩
  · rw [filter_merge (S.map (·.id)).contains
      (Catalog.isStamped_evaluateAll (List.Subset.refl _))]
    have named : (Rule.evaluateAll Catalog.rules w s).filter
        (fun result => (S.map (·.id)).contains result.ruleId) =
          Rule.evaluateAll (Catalog.rules.filter fun r => (S.map (·.id)).contains r.id) w s := by
      simp only [Rule.evaluateAll, List.filter_map]
      rfl
    rw [named]
    exact merge_perm ((Catalog.perm_filter_ids hS distinct).map _)
      (Catalog.nodup_ruleIds hS distinct w s) (Catalog.isStamped_evaluateAll hS)
  · refine (merge_perm (hT.symm.map _) (Catalog.nodup_ruleIds hS distinct w s)
      (Catalog.isStamped_evaluateAll hS)).symm
  · exact filter_merge_result (Catalog.isStamped_evaluate (hS hr) w s) others

/-- The style rules before the security rules, on an empty mapping. -/
theorem merge_evaluateAll_style_security :
    (merge (Rule.evaluateAll (Style.rules ++ Security.rules)
      (.ofDocument { root := .empty, text := "" }) {})).map (·.ruleId) =
        ["no-jobs", "top-level-permissions"] ∧
    (Style.rules ++ Security.rules).Nodup ∧ Style.rules ++ Security.rules ⊆ Catalog.rules ∧
    merge (Rule.evaluateAll (Style.rules ++ Security.rules)
      (.ofDocument { root := .empty, text := "" }) {}) =
        (merge (Rule.evaluateAll Catalog.rules
          (.ofDocument { root := .empty, text := "" }) {})).filter
          (fun f => ((Style.rules ++ Security.rules).map (·.id)).contains f.ruleId) := by
  have distinct : (Style.rules ++ Security.rules).Nodup :=
    List.Nodup.of_map (·.id) (by decide +kernel)
  have known : Style.rules ++ Security.rules ⊆ Catalog.rules := by
    intro r hr
    simp only [Catalog.rules, List.mem_append] at hr ⊢
    rcases hr with hr | hr
    · exact .inr hr
    · exact .inl (.inl hr)
  exact ⟨by decide +kernel, distinct, known, (merge_evaluateAll_eq_filter distinct known _ {}).1⟩

end FlowLint
