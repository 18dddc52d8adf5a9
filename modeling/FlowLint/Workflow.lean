import FlowLint.Order
import FlowLint.Workflow.Parts
import FlowLint.Workflow.Secret

/-! A workflow: what a document says about triggers, permissions and jobs. Every document is one;
what is not a mapping is a workflow without parts. -/

namespace FlowLint

open FlowLint.Tree (Node Scalar Mapping Document)

/-- The parts of a workflow, with the document that they come from. -/
structure Workflow where
  source : Document
  name : Option Scalar := none
  triggers : List Trigger := []
  permissions : Option Permissions := none
  concurrency : Option Node := none
  env : Option Mapping := none
  jobs : List Job := []
  /-- The keys of the root that have no meaning. -/
  extras : List String := []
  secretRefs : List SecretRef := []

namespace Workflow

def ofDocument (source : Document) : Workflow :=
  match source.root.mapping? with
  | none => { source }
  | some root =>
    { source
      name := scalarAt root "name"
      triggers := Trigger.ofNode (root.get? "on")
      permissions := Permissions.ofNode (root.get? "permissions") "/permissions"
      concurrency := root.get? "concurrency"
      env := mappingAt root "env"
      jobs := Job.ofNode (root.get? "jobs")
      extras := extraKeys root rootKeys
      secretRefs := SecretRef.ofRoot source.root }

def events (w : Workflow) : List String := w.triggers.map (·.event)

/-- The events without repetitions, in the order of their names. -/
def distinctEvents (w : Workflow) : List String :=
  sortOrdered (fun a b => decide (a < b)) w.events.eraseDups

def trigger? (w : Workflow) (event : String) : Option Trigger :=
  w.triggers.find? (·.event == event)

def hasPushAndPullRequest (w : Workflow) : Bool :=
  w.events.contains "push" &&
    (w.events.contains "pull_request" || w.events.contains "pull_request_target")

/-- The job with the given name; of several the last. -/
def job? (w : Workflow) (id : String) : Option Job := w.jobs.reverse.find? (·.id == id)

def steps (w : Workflow) : List (Job × Step) :=
  w.jobs.flatMap fun j => j.steps.map (j, ·)

end Workflow

end FlowLint
