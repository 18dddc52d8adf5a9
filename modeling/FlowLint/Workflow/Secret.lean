import FlowLint.Tree.Document
import FlowLint.Workflow.Expression

/-! References to secrets, and the parts of a workflow that they stand in. -/

namespace FlowLint

open FlowLint.Tree (Node Pointer.segments)

/-- The part of a workflow that a reference stands in. -/
inductive SecretScope where
  | rootEnv
  | jobEnv
  | stepEnv
  | stepWith
  | jobSecrets
  | jobWith
  | run
  | other
  deriving DecidableEq, Repr

def SecretScope.name : SecretScope → String
  | .rootEnv => "root_env"
  | .jobEnv => "job_env"
  | .stepEnv => "step_env"
  | .stepWith => "step_with"
  | .jobSecrets => "job_secrets"
  | .jobWith => "job_with"
  | .run => "run"
  | .other => "other"

/-- A reference to a secret. -/
structure SecretRef where
  path : String
  expression : String
  scope : SecretScope
  /-- The job that the reference belongs to. -/
  jobId : Option String
  line : Nat
  deriving DecidableEq, Repr

def SecretScope.ofStepKey (key : String) : SecretScope :=
  if key == "env" then .stepEnv
  else if key == "with" then .stepWith
  else if key == "run" then .run
  else .other

/-- The scope and the job of what stands under a list of segments. -/
def SecretScope.ofSegments : List String → SecretScope × Option String
  | "env" :: _ => (.rootEnv, none)
  | "jobs" :: job :: part :: rest =>
    if part == "env" then (.jobEnv, some job)
    else if part == "secrets" then (.jobSecrets, some job)
    else if part == "with" then (.jobWith, some job)
    else if part == "steps" then
      match rest with
      | _ :: key :: _ => (.ofStepKey key, some job)
      | _ => (.other, some job)
    else (.other, some job)
  | _ => (.other, none)

/-- The expressions below a node that read a secret: pointer, expression and line. -/
def secretsBelow (n : Node) (pointer : String) : List (String × String × Nat) :=
  (n.walk pointer).flatMap fun
    | (p, .scalar s) => (Expression.secrets s.value).map (p, ·, s.origin.line)
    | _ => []

/-- The references to secrets in a tree. -/
def SecretRef.ofRoot (root : Node) : List SecretRef :=
  (secretsBelow root "").map fun (path, expression, line) =>
    let (scope, jobId) := SecretScope.ofSegments (Pointer.segments path)
    { path, expression, scope, jobId, line }

end FlowLint
