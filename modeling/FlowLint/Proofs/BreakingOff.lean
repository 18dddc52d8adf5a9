import FlowLint.Proofs.Ranking
import FlowLint.Review
import Mathlib.Data.List.Forall2

/-! Rules that break off early. What a rule has said before it breaks off is kept, and no other rule
is touched by it: if `lost` is what a rule did not get to say, the ranked findings lose those whose
rule and place occur in `lost` only, and nothing else (`merge_lose`). Ranking drops duplicates and
sorts after the rule broke off, so both have to commute with the loss. -/

namespace FlowLint

open FlowLint.Tree (Document)

namespace Finding

/-- The list has a finding of the same rule for the same place. -/
def isAmong (f : Finding) (l : List Finding) : Bool := l.any (·.isDuplicate f)

theorem isAmong_of_mem {f : Finding} {l : List Finding} (h : f ∈ l) : f.isAmong l = true :=
  List.any_eq_true.mpr ⟨f, h, by simp [isDuplicate]⟩

@[simp] theorem isAmong_append (f : Finding) (l m : List Finding) :
    f.isAmong (l ++ m) = (f.isAmong l || f.isAmong m) := List.any_append

/-- The draft that leaves nothing open. -/
def draft (f : Finding) : Draft where
  location := f.location
  title := f.title
  why := f.why
  change := f.change
  patch := f.patch
  ruleId := f.ruleId
  severity := f.severity
  category := f.category
  order := f.order

end Finding

/-! ### Duplicates -/

theorem firstOfEach_append (l m : List Finding) :
    firstOfEach (l ++ m) = firstOfEach l ++ (firstOfEach m).filter (!·.isAmong l) := by
  induction l with
  | nil => simp [firstOfEach, Finding.isAmong]
  | cons f rest ih =>
    rw [List.cons_append, firstOfEach, firstOfEach, ih, List.filter_append, List.filter_filter,
      List.cons_append]
    simp only [Finding.isAmong, List.any_cons, Bool.not_or]

/-- Without the findings of `lost`, the first of each are what they were, but for those that occur
in `lost` only. The findings behind must be apart from them: else one that was a duplicate of a
lost one would come to the fore. -/
theorem firstOfEach_lose {kept lost behind : List Finding}
    (apart : ∀ f ∈ lost, ∀ g ∈ behind, f.isDuplicate g = false) :
    firstOfEach (kept ++ behind) = (firstOfEach (kept ++ (lost ++ behind))).filter
      fun f => !(f.isAmong lost && !f.isAmong (kept ++ behind)) := by
  have front : ∀ f ∈ firstOfEach kept, f.isAmong (kept ++ behind) = true := by
    intro f hf
    exact Finding.isAmong_of_mem (List.mem_append_left _ (mem_of_mem_firstOfEach hf))
  have back : ∀ g ∈ firstOfEach behind, g.isAmong lost = false := by
    intro g hg
    refine List.any_eq_false.mpr fun f hf => ?_
    simp [apart f hf g (mem_of_mem_firstOfEach hg)]
  have middle : ∀ f ∈ firstOfEach lost, f.isAmong behind = false := by
    intro f hf
    refine List.any_eq_false.mpr fun g hg same => ?_
    have differ := apart f (mem_of_mem_firstOfEach hf) g hg
    simp only [Finding.isDuplicate, Bool.and_eq_true, beq_iff_eq] at same
    simp [Finding.isDuplicate, same.1, same.2] at differ
  rw [firstOfEach_append, firstOfEach_append kept, firstOfEach_append lost]
  simp only [List.filter_append, List.filter_filter, Finding.isAmong_append]
  have kept_stay : (firstOfEach kept).filter (fun f =>
      !(f.isAmong lost && !(f.isAmong kept || f.isAmong behind))) = firstOfEach kept := by
    refine List.filter_eq_self.mpr fun f hf => ?_
    have stays := front f hf
    rw [Finding.isAmong_append] at stays
    simp [stays]
  have lost_go : (firstOfEach lost).filter (fun f =>
      !(f.isAmong lost && !(f.isAmong kept || f.isAmong behind)) && !f.isAmong kept) = [] := by
    refine List.filter_eq_nil_iff.mpr fun f hf => ?_
    simp [Finding.isAmong_of_mem (mem_of_mem_firstOfEach hf), middle f hf]
  have behind_stay : (firstOfEach behind).filter (fun f =>
      !(f.isAmong lost && !(f.isAmong kept || f.isAmong behind)) &&
        (!f.isAmong kept && !f.isAmong lost)) = (firstOfEach behind).filter (!·.isAmong kept) := by
    refine List.filter_congr fun g hg => ?_
    simp [back g hg]
  rw [kept_stay, lost_go, behind_stay, List.nil_append]

/-- No finding of the one result is of the same rule for the same place as one of the other. -/
def RuleResult.Apart (r r' : RuleResult) : Prop :=
  ∀ f ∈ r.findings, ∀ g ∈ r'.findings, f.isDuplicate g = false

instance : DecidableRel RuleResult.Apart := fun r r' =>
  inferInstanceAs (Decidable (∀ f ∈ r.findings, ∀ g ∈ r'.findings, f.isDuplicate g = false))

/-- Of a result only the first `n` findings are left. -/
theorem merge_lose (before after : List RuleResult) {r r' : RuleResult} {n : Nat}
    (left : r'.findings = r.findings.take n) (apart : ∀ result ∈ after, r.Apart result) :
    merge (before ++ r' :: after) = (merge (before ++ r :: after)).filter fun f =>
      !(f.isAmong (r.findings.drop n) &&
        !f.isAmong ((before ++ r' :: after).flatMap (·.findings))) := by
  have behind : ∀ f ∈ r.findings.drop n, ∀ g ∈ after.flatMap (·.findings),
      f.isDuplicate g = false := by
    intro f hf g hg
    obtain ⟨result, hresult, found⟩ := List.mem_flatMap.mp hg
    exact apart result hresult f (List.mem_of_mem_drop hf) g found
  have cut : (before ++ r' :: after).flatMap (·.findings) =
      (before.flatMap (·.findings) ++ r.findings.take n) ++ after.flatMap (·.findings) := by
    rw [List.flatMap_append, List.flatMap_cons, left, List.append_assoc]
  have whole : (before ++ r :: after).flatMap (·.findings) =
      (before.flatMap (·.findings) ++ r.findings.take n) ++
        (r.findings.drop n ++ after.flatMap (·.findings)) := by
    rw [List.flatMap_append, List.flatMap_cons, ← List.append_assoc (_ ++ _) _ _,
      List.append_assoc _ (r.findings.take n), List.take_append_drop, List.append_assoc]
  rw [merge, merge, filter_sortOrdered Finding.ranks_before, cut, whole, ← firstOfEach_lose behind]

/-! ### Rules -/

namespace Rule

/-- The rule breaks off. -/
def fails (r : Rule) (w : Workflow) (s : Settings) : Bool := (r.check w s).fault.isSome

/-- The rule, made to break off behind its first `n` drafts. -/
def cut (r : Rule) (n : Nat) (fault : RuleFault) : Rule :=
  { r with check := fun w s => ⟨(r.check w s).drafts.take n, fault⟩ }

/-- The rule that says the same of every workflow. -/
def yielding (id : String) (findings : List Finding) (fault : Option RuleFault := none) : Rule where
  id
  category := default
  severity := default
  description := ""
  check _ _ := ⟨findings.map Finding.draft, fault⟩

theorem findings_evaluate_cut (r : Rule) (n : Nat) (fault : RuleFault) (w : Workflow)
    (s : Settings) :
    ((r.cut n fault).evaluate w s).findings = (r.evaluate w s).findings.take n :=
  List.map_take

theorem ids_failed (rules : List Rule) (w : Workflow) (s : Settings) :
    ((evaluateAll rules w s).filter (·.error.isSome)).map (·.ruleId) =
      (rules.filter (·.fails w s)).map (·.id) := by
  have errors : (RuleResult.error · |>.isSome) ∘ (evaluate · w s) = (fails · w s) := by
    funext r
    simp [evaluate, fails]
  rw [evaluateAll, List.filter_map, List.map_map, errors]
  rfl

end Rule

/-- Each rule has one result, in the order of the rules: what the rule said before it broke off, and
an error if it did; the failed rules are those that broke off. Where no two rules find something
of the same rule for the same place, and one of them is made to break off earlier, the ranked
findings only lose those whose rule and place occur in nothing but the lost part; the rest of the
review is that of the remaining findings. -/
theorem review_cut (s : Settings) (doc : Document) :
    (∀ rules : List Rule,
      List.Forall₂ (fun r result => result.ruleId = r.id ∧
          result.findings = (r.check (.ofDocument doc) s).drafts.map (r.stamp (.ofDocument doc)) ∧
          (result.error.isSome ↔ r.fails (.ofDocument doc) s))
        rules (Rule.evaluateAll rules (.ofDocument doc) s) ∧
      (Review.ofDocument rules s doc).failedRules =
        (rules.filter (·.fails (.ofDocument doc) s)).map (·.id)) ∧
    ∀ (before after : List Rule) (r : Rule) (n : Nat) (fault : RuleFault),
      (Rule.evaluateAll (before ++ r :: after) (.ofDocument doc) s).Pairwise RuleResult.Apart →
      let whole := Review.ofDocument (before ++ r :: after) s doc
      let rules := before ++ r.cut n fault :: after
      let lost := (r.evaluate (.ofDocument doc) s).findings.drop n
      let left := (Rule.evaluateAll rules (.ofDocument doc) s).flatMap (·.findings)
      let remaining := whole.findings.filter fun f => !(f.isAmong lost && !f.isAmong left)
      Review.ofDocument rules s doc = {
        findings := remaining
        checklist := checklist remaining
        summary := Report.summary (.ofDocument doc) remaining
        report := Report.render (.ofDocument doc) remaining
        jobsReviewed := whole.jobsReviewed
        failedRules := (before.filter (·.fails (.ofDocument doc) s)).map (·.id) ++
          r.id :: (after.filter (·.fails (.ofDocument doc) s)).map (·.id) } ∧
      ∀ severity, (Review.ofDocument rules s doc).count severity =
        (withSeverity severity remaining).length := by
  refine ⟨fun rules => ⟨?_, Rule.ids_failed rules _ s⟩, ?_⟩
  · refine List.forall₂_map_right_iff.mpr (List.forall₂_same.mpr fun r _ => ⟨rfl, rfl, ?_⟩)
    simp [Rule.evaluate, Rule.fails]
  · intro before after r n fault apart whole rules lost left remaining
    have split (r : Rule) : Rule.evaluateAll (before ++ r :: after) (.ofDocument doc) s =
        Rule.evaluateAll before (.ofDocument doc) s ++
          r.evaluate (.ofDocument doc) s :: Rule.evaluateAll after (.ofDocument doc) s := by
      simp [Rule.evaluateAll]
    have behind : ∀ result ∈ Rule.evaluateAll after (.ofDocument doc) s,
        (r.evaluate (.ofDocument doc) s).Apart result := by
      rw [split] at apart
      exact (List.pairwise_cons.mp (List.pairwise_append.mp apart).2.1).1
    have findings : merge (Rule.evaluateAll rules (.ofDocument doc) s) = remaining := by
      have lose := merge_lose (Rule.evaluateAll before (.ofDocument doc) s)
        (Rule.evaluateAll after (.ofDocument doc) s) (r.findings_evaluate_cut n fault _ s) behind
      rw [← split, ← split] at lose
      exact lose
    have failed : ((Rule.evaluateAll rules (.ofDocument doc) s).filter (·.error.isSome)).map
        (·.ruleId) = (before.filter (·.fails (.ofDocument doc) s)).map (·.id) ++
          r.id :: (after.filter (·.fails (.ofDocument doc) s)).map (·.id) := by
      rw [Rule.ids_failed, List.filter_append, List.filter_cons_of_pos rfl, List.map_append,
        List.map_cons]
      rfl
    refine ⟨?_, fun severity => ?_⟩
    · rw [Review.ofDocument, findings, failed]
      rfl
    · exact congrArg (fun found => (withSeverity severity found).length) findings

namespace BreakingOff

/-- A finding of the named rule, for the place, with its order. -/
def noted (rule place : String) (order : Int) (title : String) : Finding where
  ruleId := rule
  severity := .improvement
  category := .concurrency
  location := place
  order
  title

def first : Rule := .yielding "first" [noted "first" "/x" 3 "d"] (some (.raised "gone"))

/-- The rule finds something twice for `/x`. -/
def second : Rule := .yielding "second" [noted "second" "/x" 2 "b", noted "second" "/y" 1 "a",
  noted "second" "/x" 0 "again", noted "second" "/z" 9 "e"]

def third : Rule := .yielding "third" [noted "third" "/y" 2 "c"]

def blank : Document where
  root := .empty
  text := ""

end BreakingOff

open BreakingOff in
/-- Of the two findings that the second rule loses, the one for `/x` is a duplicate of one that it
keeps. -/
theorem review_cut_second :
    (Rule.evaluateAll [first, second, third] (.ofDocument blank) {}).Pairwise RuleResult.Apart ∧
      (Review.ofDocument [first, second, third] {} blank).findings.map (·.title) =
        ["a", "b", "c", "d", "e"] ∧
      (Review.ofDocument [first, second.cut 2 (.raised "bug"), third] {} blank).findings =
        (Review.ofDocument [first, second, third] {} blank).findings.filter (fun f =>
          !(f.isAmong ((second.evaluate (.ofDocument blank) {}).findings.drop 2) &&
            !f.isAmong ((Rule.evaluateAll [first, second.cut 2 (.raised "bug"), third]
              (.ofDocument blank) {}).flatMap (·.findings)))) ∧
      (Review.ofDocument [first, second.cut 2 (.raised "bug"), third] {} blank).findings.map
        (·.title) = ["a", "b", "c", "d"] ∧
      (Review.ofDocument [first, second.cut 2 (.raised "bug"), third] {} blank).failedRules =
        ["first", "second"] := by
  have apart : (Rule.evaluateAll [first, second, third] (.ofDocument blank) {}).Pairwise
      RuleResult.Apart := by decide +kernel
  have review := ((review_cut {} blank).2 [first] [third] second 2 (.raised "bug") apart).1
  exact ⟨apart, by decide +kernel, congrArg Review.findings review, by decide +kernel,
    by decide +kernel⟩

end FlowLint
