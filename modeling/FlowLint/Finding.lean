/-! Findings: what a review has to say about one place of a workflow. -/

namespace FlowLint

/-- How much a finding matters. -/
inductive Severity where
  | mustFix
  | improvement
  deriving DecidableEq, Repr, Inhabited

namespace Severity

def name : Severity → String
  | .mustFix => "must-fix"
  | .improvement => "improvement"

/-- All severities, the gravest first. -/
def all : List Severity := [.mustFix, .improvement]

def rank : Severity → Nat
  | .mustFix => 0
  | .improvement => 1

end Severity

/-- The part of good practice that a finding belongs to. -/
inductive Category where
  | triggersPermissions
  | pinningTimeouts
  | cachingArtifacts
  | orderingNaming
  | concurrency
  | idempotentOperations
  deriving DecidableEq, Repr, Inhabited

namespace Category

def name : Category → String
  | .triggersPermissions => "triggers_permissions"
  | .pinningTimeouts => "pinning_timeouts"
  | .cachingArtifacts => "caching_artifacts"
  | .orderingNaming => "ordering_naming"
  | .concurrency => "concurrency"
  | .idempotentOperations => "idempotent_operations"

/-- The heading of a category in the checklist. -/
def label : Category → String
  | .triggersPermissions => "Triggers & Permissions"
  | .pinningTimeouts => "Pinning & Timeouts"
  | .cachingArtifacts => "Caching & Artifacts"
  | .orderingNaming => "Key Ordering & Naming"
  | .concurrency => "Concurrency"
  | .idempotentOperations => "Idempotent Operations"

/-- All categories in the order of the checklist. -/
def all : List Category := [
  .triggersPermissions, .pinningTimeouts, .cachingArtifacts, .orderingNaming, .concurrency,
  .idempotentOperations]

end Category

/-- A finding of a rule at a place of a workflow. -/
structure Finding where
  ruleId : String
  severity : Severity
  category : Category
  /-- The pointer of the place. -/
  location : String := ""
  order : Int := 0
  title : String
  why : String := ""
  change : String := ""
  /-- Text that may take the place of what was found. -/
  patch : Option String := none
  deriving DecidableEq, Repr, Inhabited

end FlowLint
