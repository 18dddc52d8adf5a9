import FlowLint.Order
import FlowLint.Rule.Basic
import FlowLint.Rule.Identifier
import FlowLint.Rule.Title

/-! Rules about style and consistency. -/

namespace FlowLint.Style

open FlowLint.Tree (Node Scalar Mapping Pointer.child Pointer.descendant)

/-- The names of jobs and steps, with their pointers. -/
def names (w : Workflow) : List (String × String) :=
  w.jobs.flatMap fun j =>
    (j.name.map fun n => (Pointer.child j.path "name", n.value)).toList ++
      j.steps.filterMap fun st => st.name.map fun n => (Pointer.child st.path "name", n.value)

def nameCasing (w : Workflow) (s : Settings) : List Draft :=
  (names w).filterMap fun (location, name) =>
    match Title.violations s.casing name with
    | [] => none
    | bad => some {
        location
        title := "Name '" ++ name ++ "' is not in Title Case"
        why := "Consistent names make the run summary and required checks easy to scan."
        change := "Capitalize: " ++ Text.join ", " bad ++ "."
        patch := "name: " ++ Title.suggest s.casing name }

def jobIdentifiers (j : Job) : List (String × String) :=
  (j.steps.filterMap fun st =>
    match st.id with
    | some id =>
      if Text.contains id.value "$\x7b\x7b" then none
      else some (Pointer.child st.path "id", id.value)
    | none => none) ++
  match j.outputs with
  | some outputs => outputs.keys.map fun key =>
      (Pointer.descendant j.path ["outputs", key], key)
  | none => []

def triggerIdentifiers (t : Trigger) : List (String × String) :=
  ["inputs", "outputs", "secrets"].flatMap fun part =>
    match t.filters.bind (mappingAt · part) with
    | some block => block.keys.map fun key => (Pointer.descendant t.path [part, key], key)
    | none => []

/-- The identifiers that a workflow defines, with their pointers. -/
def identifiers (w : Workflow) : List (String × String) :=
  w.jobs.flatMap jobIdentifiers ++
    (["workflow_dispatch", "workflow_call"].filterMap w.trigger?).flatMap triggerIdentifiers

def identifierCase (w : Workflow) (_ : Settings) : List Draft :=
  (identifiers w).filterMap fun (location, identifier) =>
    if Identifier.isSnakeCase identifier.toList then none
    else some {
      location
      title := "Identifier " ++ code identifier ++ " is not snake_case"
      why := "Mixed identifier styles make expressions like `steps.<id>.outputs.<key>` error-prone."
      change := "Rename to " ++ code (Identifier.suggest identifier) ++
        " and update its references." }

def showsMatrix (name : String) : Bool :=
  (Expression.inners name.toList).any (Text.occursIn "matrix.".toList)

def matrixJobName (w : Workflow) (_ : Settings) : List Draft :=
  w.jobs.filterMap fun j =>
    match j.name with
    | none => none
    | some name =>
      if j.matrix.isNone || showsMatrix name.value then none
      else some {
        location := Pointer.child j.path "name"
        title := "Matrix job '" ++ name.value ++ "' does not show its matrix values"
        why := "Every matrix leg shows the same name, so failures cannot be told apart."
        change := "Interpolate the matrix variables into the job name."
        patch := "name: " ++ name.value ++ " ($\x7b\x7b matrix.<key> \x7d\x7d)" }

/-- How many lines of the text a block scalar has: those behind its first line that are not blank. A
scalar that ends where it begins has the lines of its value. -/
def sourceLineCount (w : Workflow) (s : Scalar) : Nat :=
  if s.endLine ≤ s.origin.line then
    let isFeed (c : Char) : Bool := c == '\n'
    let value := (s.value.toList.dropWhile isFeed).reverse.dropWhile isFeed
    (Text.lineList value.reverse).length
  else
    ((w.source.lines.take s.endLine).drop s.origin.line).countP (!Text.allBlank ·)

def blockScalarSingleLine (w : Workflow) (_ : Settings) : List Draft :=
  (w.source.root.walk "").filterMap fun
    | (pointer, .scalar s) =>
      if !s.isBlock || 1 < sourceLineCount w s then none
      else some {
        location := pointer
        title := "Single-line value written as a block scalar"
        why := "Block indicators on one-line values add noise and invite " ++
          "trailing-newline surprises."
        change := "Write the value as a plain scalar."
        patch := Tree.Pointer.lastSegment pointer ++ ": " ++ Text.trim s.value }
    | _ => none

def anchorDraft (pointer name : String) (isAlias : Bool) : Draft where
  location := pointer
  title := "YAML " ++ (if isAlias then "alias" else "anchor") ++ " " ++
    code ((if isAlias then "*" else "&") ++ name)
  why := "Anchors hide configuration far from where it applies and are unsupported by some tooling."
  change := "Inline the value, or use a reusable workflow or composite action."

/-- The anchors and aliases among nodes in the order of the text, but for those below the aliases
`passed`: what stands there was copied. -/
def anchorsFrom (passed : List String) : List (String × Node) → List Draft
  | [] => []
  | (pointer, n) :: rest =>
    if passed.any fun p => Text.startsWith pointer (p ++ "/") then anchorsFrom passed rest
    else match n.origin.anchor with
      | none => anchorsFrom passed rest
      | some name =>
        let isAlias := n.origin.style == .alias
        anchorDraft pointer name isAlias ::
          anchorsFrom (if isAlias then passed ++ [pointer] else passed) rest

def anchorUsage (w : Workflow) (_ : Settings) : List Draft :=
  anchorsFrom [] (w.source.root.walk "")

/-- The conditions of jobs and steps, with their pointers. -/
def conditions (w : Workflow) : List (String × String) :=
  w.jobs.flatMap fun j =>
    (j.condition.map fun c => (Pointer.child j.path "if", c.value)).toList ++
      j.steps.filterMap fun st => st.condition.map fun c => (Pointer.child st.path "if", c.value)

def ifExpressionWrapper (w : Workflow) (_ : Settings) : List Draft :=
  (conditions w).filterMap fun (location, condition) =>
    if Expression.isWrapped condition then none
    else some {
      location
      title := code ("if: " ++ condition) ++ " is not wrapped in " ++ code "$\x7b\x7b \x7d\x7d"
      why := "Unwrapped conditions that start with `!` or contain `:` " ++
        "parse differently than intended."
      change := "Wrap the condition in an expression."
      patch := "if: $\x7b\x7b " ++ Text.trim condition ++ " \x7d\x7d" }

def rank (canonical : List String) (key : String) : Nat := canonical.idxOf key

/-- The keys that stand behind a key which should follow them, each with the last such key in the
canonical order; `highest` is the last recognised key so far in that order. -/
def misplacedFrom (canonical : List String) : Option String → List String → List (String × String)
  | _, [] => []
  | none, key :: rest => misplacedFrom canonical (some key) rest
  | some highest, key :: rest =>
    if rank canonical key < rank canonical highest then
      (key, highest) :: misplacedFrom canonical (some highest) rest
    else misplacedFrom canonical (some key) rest

/-- The keys of a mapping that the canonical order names, in the order of the mapping. -/
def recognised (canonical : List String) (m : Mapping) : List String :=
  m.keys.filter canonical.contains

/-- The recognised keys in the canonical order. -/
def expected (canonical : List String) (m : Mapping) : List String :=
  sortOrdered (fun a b => decide (rank canonical a < rank canonical b)) (recognised canonical m)

/-- What is said about the order of the keys of a mapping. -/
def orderDrafts (canonical : List String) (m : Mapping) (path part : String) : List Draft :=
  (misplacedFrom canonical none (recognised canonical m)).map fun (key, highest) => {
    location := Pointer.child path key
    title := code key ++ " should come before " ++ code highest ++ " in the " ++ part
    why := "A fixed key order makes workflows diff cleanly and read the same way."
    change := "Move " ++ code key ++ s!" to position {(expected canonical m).idxOf key + 1}: " ++
      Text.join ", " (expected canonical m) ++ "." }

def keyOrder (w : Workflow) (_ : Settings) : List Draft :=
  (match w.source.root.mapping? with
    | some root => orderDrafts rootKeys root "" "workflow root"
    | none => []) ++
  w.jobs.flatMap fun j =>
    orderDrafts jobKeys j.node j.path ("job '" ++ j.id ++ "'") ++
      j.steps.flatMap fun st =>
        orderDrafts stepKeys st.node st.path (s!"step {st.index + 1} of '" ++ j.id ++ "'")

def stepNameMissing (w : Workflow) (_ : Settings) : List Draft :=
  w.steps.filterMap fun (j, st) =>
    if st.name.isSome then none
    else some {
      location := st.path
      title := s!"Step {st.index + 1} of job '" ++ j.label ++ "' (" ++
        (st.uses.map (·.value)).getD "run" ++ ") has no name"
      why := "Unnamed steps show raw commands in the run log."
      change := "Add a short Title Case `name`." }

/-- The rules about style and consistency. -/
def rules : List Rule := [
  .total "name-casing" .orderingNaming .improvement
    "Job and step names follow the casing policy" nameCasing,
  .total "identifier-case" .orderingNaming .improvement
    "Identifiers use snake_case" identifierCase,
  .total "matrix-job-name" .orderingNaming .improvement
    "Matrix job names interpolate matrix values" matrixJobName,
  .total "block-scalar-single-line" .orderingNaming .improvement
    "Block scalars hold multi-line values only" blockScalarSingleLine,
  .total "anchor-usage" .orderingNaming .improvement
    "No YAML anchors or aliases" anchorUsage,
  .total "if-expression-wrapper" .orderingNaming .improvement
    "if conditions use $\x7b\x7b \x7d\x7d" ifExpressionWrapper,
  .total "key-order" .orderingNaming .improvement
    "Keys follow the canonical order" keyOrder,
  .total "step-name-missing" .orderingNaming .improvement "Steps are named" stepNameMissing]

end FlowLint.Style
