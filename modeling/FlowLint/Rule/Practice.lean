import FlowLint.Rule.Basic
import FlowLint.Workflow.Script

/-! Rules about good practice. -/

namespace FlowLint.Practice

open FlowLint.Tree (Node Pointer.child text?)

/-- The keys that filter pushes. -/
def pushFilterKeys : List String :=
  ["branches", "branches-ignore", "tags", "tags-ignore", "paths", "paths-ignore"]

def notificationHints : List String := [
  "slack", "notify", "notification", "discord", "teams", "mail", "webhook", "pagerduty",
  "opsgenie", "create-an-issue", "gh issue create"]

/-- Actions with a dependency cache of their own, and the input that turns it on. -/
def nativeCaches : List (String × String) := [
  ("actions/setup-node", "cache: npm"),
  ("actions/setup-python", "cache: pip"),
  ("actions/setup-java", "cache: maven"),
  ("actions/setup-go", "cache: true"),
  ("actions/setup-dotnet", "cache: true"),
  ("ruby/setup-ruby", "bundler-cache: true")]

/-- Directories that hold dependencies. -/
def dependencyDirs : List String := [
  "node_modules", ".npm", ".yarn", ".pnpm-store", ".cache/pip", "pip-cache", ".venv", ".m2",
  ".gradle", "go/pkg/mod", "go-build", "vendor/bundle", ".nuget"]

/-- A command that changes the directory, at the beginning of a line or behind another command. -/
def directoryChange : Pattern :=
  .sequence [
    .choice [.place .textStart, .text "&&", .char ';', .text "||", .char '('],
    .many .blank, .texts ["cd", "pushd"], .atLeastOnce .blank, .notOfClass .blank]

def scripts (w : Workflow) : List (Job × Step × String) :=
  w.steps.filterMap fun (j, st) => st.run.map fun run => (j, st, run.value)

def pushBranchFilter (w : Workflow) (_ : Settings) : List Draft :=
  match w.trigger? "push" with
  | none => []
  | some trigger =>
    if trigger.filters.any fun filters => pushFilterKeys.any filters.hasKey then []
    else [{
      location := trigger.path
      title := "`push` trigger has no branch filter"
      why := "Every push to every branch starts a run; " ++
        "pull_request already covers feature branches."
      change := "Restrict `push` to the default branch and rely on `pull_request` for the rest."
      patch := "on:\n  push:\n    branches: [main]\n  pull_request:" }]

def isNotification (st : Step) : Bool :=
  let parts := [st.uses, st.name, st.run].filterMap fun s => s.map (·.value)
  let text := Text.lower (Text.join " " parts)
  notificationHints.any (Text.contains text)

def scheduleNotification (w : Workflow) (_ : Settings) : List Draft :=
  match w.trigger? "schedule" with
  | none => []
  | some trigger =>
    if w.steps.any fun (_, st) => isNotification st then []
    else [{
      location := trigger.path
      title := "Scheduled workflow has no failure notification"
      why := "Nobody watches scheduled runs, so failures go unnoticed."
      change := "Add a notification step that runs on failure."
      patch := "- name: Notify On Failure\n  if: $\x7b\x7b failure() \x7d\x7d\n" ++
        "  uses: slackapi/slack-github-action@v2" }]

def cachesDependencies (st : Step) : Bool :=
  Text.startsWith st.action "actions/cache" &&
    (text? (st.input "path")).any fun path => dependencyDirs.any (Text.contains path)

def nativeCache (w : Workflow) (_ : Settings) : List Draft :=
  w.jobs.flatMap fun j =>
    match j.steps.findSome? fun st => nativeCaches.find? (·.1 == st.action) with
    | none => []
    | some (setup, input) => (j.steps.filter cachesDependencies).map fun st => {
        location := st.path
        title := "Manual dependency cache where " ++ code setup ++ " can cache natively"
        why := "The built-in cache derives keys from the lock file and needs no extra step."
        change := "Remove the `actions/cache` step and enable caching on " ++ code setup ++ "."
        patch := "- uses: " ++ setup ++ "@v4\n  with:\n    " ++ input }

/-- What is said about an upload that keeps artifacts for `days`. A limit below a number that was
read can be written. -/
def longRetention (st : Step) (days : Int) (limit : Nat) : Draft where
  location := Tree.Pointer.descendant st.path ["with", "retention-days"]
  title := s!"Artifact retention of {days} days exceeds {limit}"
  why := "Long retention costs storage for artifacts nobody downloads."
  change := s!"Lower `retention-days` to {limit} or fewer."
  patch := s!"retention-days: {limit}"

/-- What is said about an upload that does not say how long artifacts are kept. A limit that cannot
be written is a fault. -/
def noRetention (j : Job) (st : Step) (limit : Nat) : Except Text.Integer.Fault Draft :=
  (Text.Integer.write limit).map fun shown => {
    location := st.path
    title := "Artifact upload in " ++ st.label j ++ " has no `retention-days`"
    why := "Artifacts default to 90 days of storage."
    change := s!"Set `retention-days` to {shown} or fewer."
    patch := s!"with:\n  retention-days: {shown}" }

/-- What is said about the retention of one upload. A text of digits that is no number is a fault.
-/
def retentionOf (limit : Nat) (j : Job) (st : Step) :
    Except Text.Integer.Fault (Option Draft) :=
  if st.action != "actions/upload-artifact" then .ok none
  else match st.input "retention-days" with
    | none => (noRetention j st limit).map some
    | some node =>
      match text? (some node) with
      | none => .ok none
      | some text =>
        if !Tree.isNumeral (Text.trim text) then .ok none
        else match Text.Integer.read text with
          | .error fault => .error fault
          | .ok days => .ok (if limit < days then some (longRetention st days limit) else none)

/-- What is said about the retention of uploads, up to the first fault. -/
def retentionsOf (limit : Nat) : List (Job × Step) → Verdict
  | [] => { drafts := [] }
  | (j, st) :: rest =>
    match retentionOf limit j st with
    | .error fault => { drafts := [], fault := some (.number fault) }
    | .ok d =>
      let later := retentionsOf limit rest
      { later with drafts := d.toList ++ later.drafts }

def artifactRetention (w : Workflow) (s : Settings) : Verdict :=
  retentionsOf s.maxRetentionDays.value w.steps

def workingDirectory (w : Workflow) (_ : Settings) : List Draft :=
  (scripts w).filterMap fun (j, st, script) =>
    if (Script.logicalLineChars script).any directoryChange.occursIn then some {
      location := Pointer.child st.path "run"
      title := "Directory change inside the script of " ++ st.label j
      why := "`cd` hides the step's real working directory and leaks into later commands."
      change := "Set `working-directory` on the step instead."
      patch := "working-directory: <dir>" }
    else none

def inlineScriptLength (w : Workflow) (s : Settings) : List Draft :=
  let limit := s.maxScriptLines.value
  (scripts w).filterMap fun (j, st, script) =>
    let count := (Script.logicalLineChars script).length
    if limit < count then some {
      location := Pointer.child st.path "run"
      title := "Inline script of " ++ st.label j ++ s!" has {count} lines (limit {limit})"
      why := "Long inline scripts cannot be linted, tested or reused."
      change := "Extract the script to a file under the repository and call it."
      patch := "run: ./scripts/<name>.sh" }
    else none

/-- The checkout does not keep the token. -/
def dropsCredentials (st : Step) : Bool :=
  (text? (st.input "persist-credentials")).any fun s => Text.lower (Text.trim s) == "false"

def checkoutCredentials (w : Workflow) (_ : Settings) : List Draft :=
  w.steps.filterMap fun (j, st) =>
    if st.action != "actions/checkout" || dropsCredentials st then none
    else some {
      location := st.path
      title := "Checkout in " ++ st.label j ++ " persists credentials"
      why := "The token stays in .git/config for every later step to read."
      change := "Set `persist-credentials: false` unless later steps push."
      patch := "with:\n  persist-credentials: false" }

/-- The rules about good practice. -/
def rules : List Rule := [
  .total "push-branch-filter" .triggersPermissions .improvement
    "push triggers are filtered" pushBranchFilter,
  .total "schedule-notification" .triggersPermissions .improvement
    "Scheduled workflows notify on failure" scheduleNotification,
  .total "native-cache" .cachingArtifacts .improvement
    "Setup actions cache dependencies natively" nativeCache,
  ⟨"artifact-retention", .cachingArtifacts, .improvement, "Artifacts have short retention",
    artifactRetention⟩,
  .total "working-directory" .idempotentOperations .improvement
    "working-directory instead of cd" workingDirectory,
  .total "inline-script-length" .idempotentOperations .improvement
    "Inline scripts stay short" inlineScriptLength,
  .total "checkout-credentials" .triggersPermissions .improvement
    "Checkout does not persist credentials" checkoutCredentials]

end FlowLint.Practice
