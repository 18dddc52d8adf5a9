import FlowLint.Proofs.Digits
import FlowLint.Review

/-! Rules that break off. Only the rule about the retention of artifacts can, and it does at an
upload whose retention looks like a number and is not read as one, or that has none to which the
limit could be proposed (`Practice.BreaksOff`). -/

namespace FlowLint

open FlowLint.Tree (Document isNumeral load text?)

namespace Practice

/-- The step uploads an artifact for a number of days that looks like a number and is not read as
one: a digit is not decimal, there are too many of them, or an information separator stands before
or behind them. Or it does not say for how long, and the limit has too many digits to be shown. -/
def BreaksOff (limit : Nat) (st : Step) : Prop :=
  st.action = "actions/upload-artifact" ∧
    ((st.input "retention-days" = none ∧ Text.Integer.bound ≤ limit) ∨
    ∃ text, text? (st.input "retention-days") = some text ∧ isNumeral (Text.trim text) = true ∧
      ((∃ c ∈ Text.trimChars text.toList, Text.isDecimal c = false) ∨
        Text.Integer.maxDigits < (Text.trimChars text.toList).length ∨
        ∃ c ∈ text.toList, Text.isBlank c ∧ Text.Integer.isMargin c = false))

theorem exists_noRetention_error_iff (j : Job) (st : Step) (limit : Nat) :
    (∃ fault, noRetention j st limit = .error fault) ↔ Text.Integer.bound ≤ limit := by
  unfold noRetention Text.Integer.write
  split
  next large => exact ⟨fun _ => large, fun _ => ⟨.tooLarge, rfl⟩⟩
  next small => exact ⟨nofun, fun large => absurd large small⟩

theorem exists_read_error_iff {text : String} (h : isNumeral (Text.trim text) = true) :
    (∃ fault, Text.Integer.read text = .error fault) ↔
      ((∃ c ∈ Text.trimChars text.toList, Text.isDecimal c = false) ∨
        Text.Integer.maxDigits < (Text.trimChars text.toList).length ∨
        ∃ c ∈ text.toList, Text.isBlank c ∧ Text.Integer.isMargin c = false) := by
  have either : (∃ fault, Text.Integer.read text = .error fault) ↔
      ¬ ∃ n, Text.Integer.read text = .ok n := by
    cases Text.Integer.read text <;> simp
  rw [either, Text.Integer.exists_read_iff h]
  simp only [Classical.not_and_iff_not_or_not, Classical.not_forall, Nat.not_le,
    Bool.not_eq_true, exists_prop]

theorem exists_retentionOf_error_iff (limit : Nat) (j : Job) (st : Step) :
    (∃ fault, retentionOf limit j st = .error fault) ↔ BreaksOff limit st := by
  unfold retentionOf BreaksOff
  by_cases action : st.action = "actions/upload-artifact"
  · simp only [action, bne_self_eq_false, Bool.false_eq_true, if_false, true_and]
    cases st.input "retention-days" with
    | none =>
      have nothing : text? none = none := rfl
      simp only [nothing, true_and, reduceCtorEq, false_and, exists_false, or_false,
        ← exists_noRetention_error_iff j st limit]
      cases noRetention j st limit <;> simp [Except.map]
    | some node =>
      simp only [reduceCtorEq, false_and, false_or]
      cases found : text? (some node) with
      | none => simp
      | some text =>
        by_cases numeral : isNumeral (Text.trim text) = true
        · simp only [numeral, Bool.not_true, Bool.false_eq_true, if_false,
            Option.some.injEq, exists_eq_left', true_and, ← exists_read_error_iff numeral]
          cases Text.Integer.read text <;> simp
        · simp [numeral]
  · simp [action]

/-- The rule about retention breaks off if one of the steps makes it. -/
theorem isSome_fault_retentionsOf_iff (limit : Nat) (steps : List (Job × Step)) :
    (retentionsOf limit steps).fault.isSome ↔ ∃ p ∈ steps, BreaksOff limit p.2 := by
  induction steps with
  | nil => simp [retentionsOf]
  | cons p rest ih =>
    obtain ⟨j, st⟩ := p
    have head := exists_retentionOf_error_iff limit j st
    have split_first : (∃ p ∈ (j, st) :: rest, BreaksOff limit p.2) ↔
        BreaksOff limit st ∨ ∃ p ∈ rest, BreaksOff limit p.2 := by simp
    rw [retentionsOf, split_first, ← head]
    split
    next fault broken => simp [broken]
    next d fine => simp [fine, ih]

/-- About steps that do not make it break off, the rule speaks one by one. -/
theorem drafts_retentionsOf_eq {limit : Nat} {steps : List (Job × Step)}
    (fine : ∀ p ∈ steps, ¬ BreaksOff limit p.2) :
    (retentionsOf limit steps).drafts =
      steps.filterMap fun p => (retentionOf limit p.1 p.2).toOption.join := by
  induction steps with
  | nil => rfl
  | cons p rest ih =>
    obtain ⟨j, st⟩ := p
    obtain ⟨head, rest_fine⟩ := List.forall_mem_cons.mp fine
    cases found : retentionOf limit j st with
    | error fault => exact absurd ((exists_retentionOf_error_iff _ _ _).mp ⟨fault, found⟩) head
    | ok d =>
      rw [retentionsOf, found, List.filterMap_cons, found]
      cases d with
      | none => exact ih rest_fine
      | some d => exact congrArg (d :: ·) (ih rest_fine)

end Practice

theorem Catalog.fault_or : ∀ r ∈ Catalog.rules,
    (r.id ≠ "artifact-retention" ∧ ∀ w s, (r.check w s).fault = none) ∨
      r.id = "artifact-retention" ∧ r.check = Practice.artifactRetention := by
  simp [Catalog.rules, Security.rules, Practice.rules, Style.rules, Rule.total]

/-- On any document and under any settings the only rule that can break off is the one about the
retention of artifacts, and it does if some step makes it; on the other documents no rule fails. -/
theorem error_evaluateAll_iff (doc : Document) (s : Settings) :
    (∀ r ∈ Rule.evaluateAll Catalog.rules (Workflow.ofDocument doc) s,
      r.error ≠ none ↔ r.ruleId = "artifact-retention" ∧
        ∃ p ∈ (Workflow.ofDocument doc).steps, Practice.BreaksOff s.maxRetentionDays.value p.2) ∧
    ((Review.ofDocument Catalog.rules s doc).failedRules = [] ↔
      ∀ p ∈ (Workflow.ofDocument doc).steps,
        ¬ Practice.BreaksOff s.maxRetentionDays.value p.2) := by
  have errors : ∀ r ∈ Rule.evaluateAll Catalog.rules (Workflow.ofDocument doc) s,
      r.error ≠ none ↔ r.ruleId = "artifact-retention" ∧
        ∃ p ∈ (Workflow.ofDocument doc).steps, Practice.BreaksOff s.maxRetentionDays.value p.2 := by
    intro r hr
    obtain ⟨rule, hrule, rfl⟩ := List.mem_map.mp hr
    rcases Catalog.fault_or rule hrule with ⟨other, fine⟩ | ⟨same, check⟩
    · simp [Rule.evaluate, fine, other]
    · rw [← Practice.isSome_fault_retentionsOf_iff s.maxRetentionDays.value]
      simp [Rule.evaluate, same, check, Practice.artifactRetention, Option.isSome_iff_ne_none]
  refine ⟨errors, ?_⟩
  simp only [Review.ofDocument, List.map_eq_nil_iff, List.filter_eq_nil_iff]
  constructor
  · intro none_fails p hp broken
    obtain ⟨rule, hrule, same⟩ : ∃ rule ∈ Catalog.rules, rule.id = "artifact-retention" := by
      decide
    have hr : rule.evaluate (Workflow.ofDocument doc) s ∈
        Rule.evaluateAll Catalog.rules (Workflow.ofDocument doc) s := List.mem_map_of_mem hrule
    have failed := (errors _ hr).mpr ⟨same, p, hp, broken⟩
    exact none_fails _ hr (Option.isSome_iff_ne_none.mpr failed)
  · intro fine r hr failed
    obtain ⟨-, p, hp, broken⟩ := (errors r hr).mp (Option.isSome_iff_ne_none.mp failed)
    exact fine p hp broken

/-- The text of a workflow in which an upload keeps its artifacts for the given days. -/
def uploadText (days : String) : String :=
  "jobs:\n  a:\n    steps:\n      - uses: actions/upload-artifact@v4\n        with:\n" ++
    "          retention-days: " ++ days ++ "\n"

/-- Arabic digits are decimal, so no rule breaks off there. -/
theorem error_evaluateAll_arabic_digits :
    ∃ doc, load (uploadText "٣٠") = .ok doc ∧
      (∀ p ∈ (Workflow.ofDocument doc).steps,
        ¬ Practice.BreaksOff (default : Settings).maxRetentionDays.value p.2) ∧
      ∀ r ∈ Rule.evaluateAll Catalog.rules (Workflow.ofDocument doc) default, r.error = none := by
  have reviewed : (Review.ofText Catalog.rules default (uploadText "٣٠")).toOption.map
      (·.failedRules) = some [] := by decide +kernel
  unfold Review.ofText at reviewed
  cases loaded : load (uploadText "٣٠") with
  | error e =>
    rw [loaded] at reviewed
    cases reviewed
  | ok doc =>
    rw [loaded] at reviewed
    obtain ⟨errors, none_fails⟩ := error_evaluateAll_iff doc default
    have fine := none_fails.mp (Option.some.inj reviewed)
    refine ⟨doc, rfl, fine, fun r hr => ?_⟩
    cases failed : r.error with
    | none => rfl
    | some text =>
      obtain ⟨-, p, hp, broken⟩ := (errors r hr).mp (by simp [failed])
      exact absurd broken (fine p hp)

/-- A raised digit looks like a number and is read as none. -/
theorem not_forall_failedRules_eq_nil :
    ¬ ∀ (text : String) (s : Settings) (review : Review),
      Review.ofText Catalog.rules s text = .ok review → review.failedRules = [] := by
  intro h
  have raised : (Review.ofText Catalog.rules default (uploadText "²")).toOption.map
      (·.failedRules) = some ["artifact-retention"] := by decide +kernel
  cases reviewed : Review.ofText Catalog.rules default (uploadText "²") with
  | error e =>
    rw [reviewed] at raised
    cases raised
  | ok review =>
    rw [reviewed] at raised
    have failed : review.failedRules = ["artifact-retention"] := Option.some.inj raised
    rw [h _ _ _ reviewed] at failed
    cases failed

end FlowLint
