import FlowLint.Order
import FlowLint.Rule.Basic

/-! The findings of a review in one list: `merge` keeps the first of the findings that one rule has
for one place, and puts the gravest first. -/

namespace FlowLint

namespace Finding

/-- What the ranking of findings goes by: severity, order, name of the rule. -/
def key (f : Finding) : Nat × Int × String := (f.severity.rank, f.order, f.ruleId)

def before (f g : Finding) : Bool :=
  f.severity.rank < g.severity.rank ||
    (f.severity.rank == g.severity.rank &&
      (f.order < g.order || (f.order == g.order && decide (f.ruleId < g.ruleId))))

def isDuplicate (f g : Finding) : Bool := f.ruleId == g.ruleId && f.location == g.location

end Finding

/-- The findings without those that have a duplicate before them. -/
def firstOfEach : List Finding → List Finding
  | [] => []
  | f :: rest => f :: (firstOfEach rest).filter (!f.isDuplicate ·)

def merge (results : List RuleResult) : List Finding :=
  sortOrdered Finding.before (firstOfEach (results.flatMap (·.findings)))

def withSeverity (s : Severity) (findings : List Finding) : List Finding :=
  findings.filter (·.severity == s)

/-- A line of the checklist: how many findings there are in a category. -/
structure ChecklistItem where
  category : Category
  count : Nat
  deriving DecidableEq, Repr

/-- There are findings in the category. -/
def ChecklistItem.flagged (i : ChecklistItem) : Bool := 0 < i.count

/-- The checklist of some findings: one line for each category. -/
def checklist (findings : List Finding) : List ChecklistItem :=
  Category.all.map fun c => ⟨c, findings.countP (·.category == c)⟩

end FlowLint
