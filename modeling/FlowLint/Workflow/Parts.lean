import FlowLint.Tree.Document
import FlowLint.Workflow.Expression

/-! The parts of a workflow: triggers, permissions, jobs and their steps. A job and a step are views
of a mapping: what they hold is looked up in it, and a part of the wrong shape is absent. -/

namespace FlowLint

open FlowLint.Tree (Node Scalar Mapping Pointer.child Pointer.item Pointer.descendant valued? text?)

/-- The keys that a workflow, a job and a step may have, in the order in which they should stand. -/
def rootKeys : List String :=
  ["name", "run-name", "on", "permissions", "concurrency", "defaults", "env", "jobs"]

@[inherit_doc rootKeys] def jobKeys : List String := [
  "name", "needs", "if", "snapshot", "permissions", "strategy", "environment", "runs-on",
  "container", "timeout-minutes", "continue-on-error", "concurrency", "outputs", "defaults",
  "services", "env", "uses", "secrets", "with", "steps"]

@[inherit_doc rootKeys] def stepKeys : List String := [
  "name", "id", "if", "continue-on-error", "timeout-minutes", "uses", "with", "secrets", "shell",
  "env", "working-directory", "run"]

def extraKeys (m : Mapping) (known : List String) : List String :=
  m.keys.filter (!known.contains ·)

def mappingAt (m : Mapping) (key : String) : Option Mapping := (m.get? key).bind Node.mapping?

def scalarAt (m : Mapping) (key : String) : Option Scalar := valued? (m.get? key)

/-- The scalars with a value among the items of a sequence, with their pointers; the items are
numbered from `first` on. -/
def itemScalars (path : String) (first : Nat) : List Node → List (String × Scalar)
  | [] => []
  | n :: rest =>
    match valued? (some n) with
    | some s => (Pointer.item path first, s) :: itemScalars path (first + 1) rest
    | none => itemScalars path (first + 1) rest

/-- The scalar at a node, or the scalars of the sequence there, with their pointers. -/
def pointedScalars (node : Option Node) (path : String) : List (String × Scalar) :=
  match node with
  | some (.sequence _ items) => itemScalars path 0 items
  | node => ((valued? node).map (path, ·)).toList

/-- An event that starts a workflow. -/
structure Trigger where
  event : String
  path : String
  config : Option Node := none

def Trigger.filters (t : Trigger) : Option Mapping := t.config.bind Node.mapping?

/-- The triggers under the key `on`: one event, a list of events, or a mapping from events to their
filters. -/
def Trigger.ofNode (node : Option Node) : List Trigger :=
  match node with
  | some (.mapping _ entries) =>
    entries.map fun (key, config) => ⟨key.value, Pointer.child "/on" key.value, some config⟩
  | node => (pointedScalars node "/on").map fun (path, s) => { event := s.value, path }

/-- Permissions: one level for all scopes, or levels for some. -/
structure Permissions where
  path : String
  level : Option String := none
  scopes : List (String × String) := []
  deriving DecidableEq, Repr

def Permissions.ofNode (node : Option Node) (path : String) : Option Permissions :=
  match node with
  | none => none
  | some (.mapping _ entries) =>
    some { path, scopes := entries.filterMap fun (key, n) => n.scalar?.map (key.value, ·.value) }
  | node => some { path, level := text? node }

/-- A step of a job: its number, its pointer and its mapping. -/
structure Step where
  index : Nat
  path : String
  node : Mapping

namespace Step

def name (s : Step) : Option Scalar := scalarAt s.node "name"

def id (s : Step) : Option Scalar := scalarAt s.node "id"

def uses (s : Step) : Option Scalar := scalarAt s.node "uses"

def run (s : Step) : Option Scalar := scalarAt s.node "run"

def inputs (s : Step) : Option Mapping := mappingAt s.node "with"

def env (s : Step) : Option Mapping := mappingAt s.node "env"

def shell (s : Step) : Option Scalar := scalarAt s.node "shell"

def workingDirectory (s : Step) : Option Scalar := scalarAt s.node "working-directory"

def condition (s : Step) : Option Scalar := scalarAt s.node "if"

/-- A failure of the step does not stop its job. -/
def continueOnError (s : Step) : Bool := (scalarAt s.node "continue-on-error").any (·.asBool)

def extras (s : Step) : List String := extraKeys s.node stepKeys

/-- The action that the step uses, in lower case and without its version. -/
def action (s : Step) : String :=
  match s.uses with
  | none => ""
  | some u => Text.lower (.ofList (Text.trimChars (Text.beforeFirst '@' u.value.toList)))

def input (s : Step) (key : String) : Option Node := s.inputs.bind (·.get? key)

end Step

/-- A job: its key, its pointer and its mapping. -/
structure Job where
  key : Scalar
  path : String
  node : Mapping

namespace Job

/-- The name by which other jobs refer to the job. -/
def id (j : Job) : String := j.key.value

def name (j : Job) : Option Scalar := scalarAt j.node "name"

/-- The labels of the runner, with their pointers. -/
def runsOn (j : Job) : List (String × Scalar) :=
  let path := Pointer.child j.path "runs-on"
  match j.node.get? "runs-on" with
  | some (.mapping o entries) =>
    pointedScalars (Mapping.get? ⟨o, entries⟩ "labels") (Pointer.child path "labels")
  | node => pointedScalars node path

def timeoutNode (j : Job) : Option Scalar := scalarAt j.node "timeout-minutes"

def timeoutMinutes (j : Job) : Option Int := j.timeoutNode.bind (·.asInt?)

def permissions (j : Job) : Option Permissions :=
  Permissions.ofNode (j.node.get? "permissions") (Pointer.child j.path "permissions")

def env (j : Job) : Option Mapping := mappingAt j.node "env"

def concurrency (j : Job) : Option Node := j.node.get? "concurrency"

def matrix (j : Job) : Option Node := (mappingAt j.node "strategy").bind (·.get? "matrix")

/-- The workflow that the job calls, if it is no job of its own. -/
def uses (j : Job) : Option Scalar := scalarAt j.node "uses"

def isCall (j : Job) : Bool := j.uses.isSome

def condition (j : Job) : Option Scalar := scalarAt j.node "if"

def outputs (j : Job) : Option Mapping := mappingAt j.node "outputs"

def extras (j : Job) : List String := extraKeys j.node jobKeys

/-- The items of a sequence of steps that are mappings, numbered from `first` on. -/
def stepsFrom (path : String) (first : Nat) : List Node → List Step
  | [] => []
  | n :: rest =>
    match n.mapping? with
    | some node => ⟨first, Pointer.item path first, node⟩ :: stepsFrom path (first + 1) rest
    | none => stepsFrom path (first + 1) rest

def steps (j : Job) : List Step :=
  match j.node.get? "steps" with
  | some (.sequence _ items) => stepsFrom (Pointer.child j.path "steps") 0 items
  | _ => []

/-- How messages call the job. -/
def label (j : Job) : String := (j.name.map (·.value)).getD j.id

/-- The labels of the runner; a label that stands for a variable of the matrix is replaced by the
values of the variable. -/
def runnerLabels (j : Job) : List (String × String) :=
  j.runsOn.flatMap fun (pointer, label) =>
    match Expression.matrixVariable? label.value, j.matrix.bind Node.mapping? with
    | some name, some matrix =>
      (pointedScalars (matrix.get? name)
        (Pointer.descendant j.path ["strategy", "matrix", name])).map fun (p, s) => (p, s.value)
    | _, _ => [(pointer, label.value)]

/-- The jobs under the key `jobs`: its entries that are mappings. -/
def ofNode (node : Option Node) : List Job :=
  match node with
  | some (.mapping _ entries) =>
    entries.filterMap fun (key, n) =>
      n.mapping?.map fun node => ⟨key, Pointer.child "/jobs" key.value, node⟩
  | _ => []

end Job

/-- How messages call a step. -/
def Step.label (s : Step) (j : Job) : String :=
  match s.name with
  | some name => "'" ++ name.value ++ "' in job '" ++ j.id ++ "'"
  | none => s!"step {s.index + 1} of job '" ++ j.id ++ "'"

end FlowLint
