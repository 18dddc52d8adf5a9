import FlowLint.Catalog
import FlowLint.Report
import FlowLint.Tree.Builder

/-! A review: the rules are evaluated, their findings ranked and reported. -/

namespace FlowLint

open FlowLint.Tree (Document LoadError load)

/-- What a review says about a workflow. -/
structure Review where
  findings : List Finding
  checklist : List ChecklistItem
  summary : String
  report : String
  jobsReviewed : Nat
  /-- The rules that broke off. -/
  failedRules : List String
  deriving DecidableEq, Repr

namespace Review

def count (r : Review) (s : Severity) : Nat := (withSeverity s r.findings).length

def ofDocument (rules : List Rule) (s : Settings) (doc : Document) : Review :=
  let w := Workflow.ofDocument doc
  let results := Rule.evaluateAll rules w s
  let findings := merge results
  { findings
    checklist := FlowLint.checklist findings
    summary := Report.summary w findings
    report := Report.render w findings
    jobsReviewed := w.jobs.length
    failedRules := (results.filter (·.error.isSome)).map (·.ruleId) }

def ofText (rules : List Rule) (s : Settings) (text : String) : Except LoadError Review :=
  (load text).map (ofDocument rules s)

end Review

end FlowLint
