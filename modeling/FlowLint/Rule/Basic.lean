import FlowLint.Finding
import FlowLint.Settings
import FlowLint.Workflow

/-! Rules. A rule looks at a workflow under the settings; it gives drafts of findings, and it may
break off with a fault. `Rule.evaluate` stamps each draft with what all findings of the rule share
and with the place of its location in the order of the text, unless the draft says otherwise. -/

namespace FlowLint

/-- What a rule says about one place; what it leaves open is filled in by `Rule.stamp`. -/
structure Draft where
  location : String
  title : String
  why : String := ""
  change : String := ""
  patch : Option String := none
  ruleId : Option String := none
  severity : Option Severity := none
  category : Option Category := none
  order : Option Int := none
  deriving DecidableEq, Repr, Inhabited

/-- Why a rule broke off. -/
inductive RuleFault where
  /-- A text that looks like a number is none, or a number cannot be written. -/
  | number (fault : Text.Integer.Fault)
  /-- The rule itself gave up. -/
  | raised (text : String)
  deriving DecidableEq, Repr

def RuleFault.text : RuleFault → String
  | .number fault => "ValueError: " ++ fault.message
  | .raised text => "RuntimeError: " ++ text

/-- What a rule says about a workflow, up to the fault with which it broke off, if it did. -/
structure Verdict where
  drafts : List Draft
  fault : Option RuleFault := none
  deriving DecidableEq, Repr

/-- A rule of the catalog. -/
structure Rule where
  id : String
  category : Category
  severity : Severity
  description : String
  check : Workflow → Settings → Verdict

/-- What a rule found in a workflow. -/
structure RuleResult where
  ruleId : String
  findings : List Finding
  error : Option String := none
  deriving DecidableEq, Repr, Inhabited

namespace Rule

/-- A rule that never breaks off. -/
def total (id : String) (category : Category) (severity : Severity) (description : String)
    (check : Workflow → Settings → List Draft) : Rule :=
  ⟨id, category, severity, description, fun w s => { drafts := check w s }⟩

def stamp (r : Rule) (w : Workflow) (d : Draft) : Finding where
  ruleId := d.ruleId.getD r.id
  severity := d.severity.getD r.severity
  category := d.category.getD r.category
  location := d.location
  order := d.order.getD (w.source.orderOf d.location)
  title := d.title
  why := d.why
  change := d.change
  patch := d.patch

def evaluate (r : Rule) (w : Workflow) (s : Settings) : RuleResult :=
  let verdict := r.check w s
  ⟨r.id, verdict.drafts.map (r.stamp w), verdict.fault.map (·.text)⟩

/-- What each of some rules finds in a workflow, in the order of the rules. -/
def evaluateAll (rules : List Rule) (w : Workflow) (s : Settings) : List RuleResult :=
  rules.map (·.evaluate w s)

end Rule

def plural (count : Nat) (word : String) : String :=
  if count == 1 then s!"{count} {word}" else s!"{count} {word}s"

/-- A text between backticks. -/
def code (s : String) : String := "`" ++ s ++ "`"

end FlowLint
