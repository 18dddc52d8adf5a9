import FlowLint.Rule.Basic
import FlowLint.Workflow.Script

/-! Rules about security and reliability. -/

namespace FlowLint.Security

open FlowLint.Tree (Node Mapping Pointer.child text?)

/-- The command that makes a shell stop at the first failure. -/
def strictMode : String := "set -euo pipefail"

def otherShells : List String := ["pwsh", "powershell", "cmd", "python"]

/-- Names of versions that move. -/
def movingRefs : List String := ["main", "master", "latest", "head", "dev", "develop", "trunk"]

def asciiLetters : List CharItem := [.span 0x41 0x5A, .span 0x61 0x7A]

/-- A short option that holds the letter for recursion. -/
def recursiveShortOption : Pattern :=
  .sequence [.char '-', .many (.oneOf { items := asciiLetters }),
    .oneOf { items := [.one 'r', .one 'R'] }, .many (.oneOf { items := asciiLetters })]

/-- An option with the blanks behind it. -/
def anyOption : Pattern :=
  .sequence [.char '-', .atLeastOnce (.notOfClass .blank), .atLeastOnce .blank]

/-- Any character but a line feed. -/
def anyChar : Pattern := .oneOf { items := [.one '\n'], negated := true }

/-- `rm` with an option for recursion. -/
def recursiveRemove : Pattern :=
  .sequence [.wordEdge, .text "rm", .atLeastOnce .blank, .few anyOption,
    .choice [recursiveShortOption, .text "--recursive"], .wordEdge]

/-- `find` with the action that deletes what is found. -/
def findDelete : Pattern :=
  .sequence [.wordEdge, .text "find", .wordEdge, .many anyChar, .blank, .text "-delete", .wordEdge]

/-- A command that deletes a tree. -/
def destructive : Pattern := .choice [recursiveRemove, findDelete]

/-- The letter of a test whether something exists. -/
def existenceLetter : Pattern := .oneOf { items := [.one 'd', .one 'e', .one 'f', .one 'L'] }

/-- A test whether something exists. -/
def existenceCheck : Pattern :=
  .choice [
    .sequence [.char '[', .optional (.char '['), .many .blank, .char '-', existenceLetter, .blank],
    .sequence [.wordEdge, .text "test", .atLeastOnce .blank, .char '-', existenceLetter, .blank]]

/-- Characters of the path to a field of an event. -/
def fieldPathChar : Pattern :=
  .oneOf { items := [
    .ofClass .word, .one '.', .one '[', .one ']', .one '*', .one '\'', .one '"', .one '-'] }

/-- A field that strangers can fill. -/
def untrustedInput : Pattern :=
  .choice [
    .sequence [.text "github.head_ref", .wordEdge],
    .sequence [.text "github.event.", .few fieldPathChar, .wordEdge,
      .texts ["title", "body", "message", "email", "label", "page_name", "head_branch", "head.ref",
        "head.label"],
      .wordEdge]]

def pullRequestHead : Pattern :=
  .choice [
    .text "github.event.pull_request.head.",
    .sequence [.text "github.head_ref", .wordEdge]]

/-- The context that a concurrency group falls back to. -/
def fallbackContext : GroupFallback → String
  | .refName => "github.ref_name"
  | .ref => "github.ref"

/-- The name of a concurrency group uses the head ref and the fallback. -/
def groupPattern (f : GroupFallback) : Pattern :=
  .sequence [.text "github.head_ref", .many .blank, .text "||", .many .blank,
    .text (fallbackContext f), .wordEdge]

/-- A name of a concurrency group as it should be. -/
def groupExample (f : GroupFallback) : String :=
  "$\x7b\x7b github.workflow \x7d\x7d-$\x7b\x7b github.head_ref || " ++ fallbackContext f ++
    " \x7d\x7d"

/-- The permissions of one scope that a workflow should begin with. -/
def readOnlyPatch : String := "permissions:\n  contents: read"

def topLevelPermissions (w : Workflow) (_ : Settings) : List Draft :=
  if w.permissions.isSome then []
  else [{
    location := "/permissions"
    title := "Missing top-level `permissions`"
    why := "Without an explicit block the GITHUB_TOKEN gets the repository default scopes, " ++
      "which are often read/write."
    change := "Declare least-privilege permissions at the workflow root."
    patch := readOnlyPatch }]

def writeAllPermissions (w : Workflow) (_ : Settings) : List Draft :=
  let all := w.permissions.toList ++ w.jobs.filterMap (·.permissions)
  (all.filter (·.level == some "write-all")).map fun p => {
    location := p.path
    title := "`permissions: write-all` grants every scope"
    why := "A compromised step could push code, publish packages or edit releases."
    change := "List only the scopes the jobs need."
    patch := readOnlyPatch }

/-- A label of a moving image of Ubuntu with a version in its place. -/
def pinnedLabel? (label : String) : Option String :=
  if Text.startsWith label "ubuntu" then some (Text.replaceAll label "-latest" "-24.04") else none

def runnerPinning (w : Workflow) (s : Settings) : List Draft :=
  w.jobs.flatMap fun j =>
    (j.runnerLabels.filter fun (_, label) =>
      !s.exemptRunners.contains label && s.denylist.occurs label).map fun (pointer, label) => {
        location := pointer
        title := "Job '" ++ j.label ++ "' runs on floating image " ++ code label
        why := "Floating runner images change underneath the workflow and break builds " ++
          "without a code change."
        change := "Pin the runner to an explicit image version."
        patch := (pinnedLabel? label).map ("runs-on: " ++ ·) }

/-- A comment at the line excuses what stands there. -/
def isJustified (w : Workflow) (s : Settings) (line : Nat) : Bool :=
  w.source.hasMarker line s.justification.occurs

def slimRunnerSecrets (w : Workflow) (s : Settings) : List Draft :=
  w.jobs.filterMap fun j =>
    match j.runnerLabels.find? fun (_, label) => s.exemptRunners.contains label with
    | none => none
    | some (pointer, label) =>
      if !w.secretRefs.any (·.jobId == some j.id) || isJustified w s j.key.origin.line then none
      else some {
        location := pointer
        title := "Job '" ++ j.label ++ "' references secrets on " ++ code label
        why := code label ++
          " is exempt from image pinning, so it must not receive credentials unreviewed."
        change := "Move the secret-consuming steps to a pinned runner, " ++
          "or mark the job as reviewed."
        patch := j.id ++ ":  # reviewed: secrets required on " ++ label }

def envKey? (w : Workflow) (jobId : Option String) : Option Tree.Scalar :=
  jobId.bind fun id => (w.job? id).bind (·.node.keyNode? "env")

def secretScope (w : Workflow) (s : Settings) : List Draft :=
  w.secretRefs.filterMap fun r =>
    match r.scope with
    | .rootEnv => some {
        location := r.path
        title := "Secret " ++ code r.expression ++ " exposed in workflow-level `env`"
        why := "Workflow-level env is visible to every step of every job, " ++
          "including third-party actions."
        change := "Pass the secret only to the step that needs it."
        patch := "- name: Use Secret\n  env:\n    TOKEN: " ++ r.expression }
    | .jobEnv =>
      if isJustified w s r.line ||
          (envKey? w r.jobId).any fun key => isJustified w s key.origin.line then none
      else some {
        location := r.path
        title := "Secret " ++ code r.expression ++ " exposed in job-level `env` of '" ++
          r.jobId.getD "" ++ "'"
        why := "Job-level env is visible to every step of the job."
        change := "Move the secret to the step that uses it, " ++
          "or add a `# reviewed` justification comment." }
    | _ => none

/-- The shell of a step is one without strict mode. -/
def hasOtherShell (st : Step) : Bool :=
  (st.shell.bind fun shell => (Text.words shell.value.toList).head?).any fun first =>
    otherShells.contains (String.ofList first)

def shellStrictMode (w : Workflow) (_ : Settings) : List Draft :=
  w.steps.filterMap fun (j, st) =>
    match st.run with
    | none => none
    | some run =>
      if !run.isBlock || hasOtherShell st then none
      else match Script.logicalLines run.value with
        | first :: _ :: _ =>
          if strictMode.toList.isPrefixOf (Text.dropBlanks run.value.toList) then none
          else some {
            location := Pointer.child st.path "run"
            title := "Multi-line script of " ++ st.label j ++ " lacks " ++ code strictMode
            why := "Without strict mode a failing command in the middle of the script " ++
              "is silently ignored."
            change := "Begin the script with " ++ code strictMode ++ "."
            patch := "run: |\n  " ++ strictMode ++ "\n  " ++ first }
        | _ => none

def jobTimeout (w : Workflow) (s : Settings) : List Draft :=
  let limit := s.maxTimeoutMinutes.value
  w.jobs.filterMap fun j =>
    if j.isCall then none
    else match j.timeoutNode with
      | none => some {
          location := j.path
          title := "Job '" ++ j.label ++ "' has no `timeout-minutes`"
          why := "A hung job holds a runner for the 6 hour default."
          change := "Set an explicit `timeout-minutes`."
          patch := s!"timeout-minutes: {min 15 limit}" }
      | some node =>
        match node.asInt? with
        | none => none
        | some minutes =>
          if minutes ≤ limit || isJustified w s node.origin.line then none
          else some {
            location := Pointer.child j.path "timeout-minutes"
            title := "Job '" ++ j.label ++ s!"' timeout of {minutes} minutes exceeds {limit}"
            why := "Long timeouts hide hangs and waste runner minutes."
            change := s!"Lower the timeout to {limit} minutes or less, " ++
              "or add a justification comment."
            patch := s!"timeout-minutes: {minutes}  # justification: <reason>"
            severity := some .improvement }

def concurrencyRequired (w : Workflow) (s : Settings) : List Draft :=
  if !w.hasPushAndPullRequest || w.concurrency.isSome ||
      (!w.jobs.isEmpty && w.jobs.all (·.concurrency.isSome)) then []
  else [{
    location := "/concurrency"
    title := "`push` and `pull_request` triggers without a `concurrency` block"
    why := "The same commit runs twice and overlapping runs compete for shared resources."
    change := "Add a workflow-level concurrency group that cancels superseded runs."
    patch := "concurrency:\n  group: " ++ groupExample s.groupFallback ++
      "\n  cancel-in-progress: true" }]

/-- The name of the group of a concurrency block, and the pointer of the name. -/
def groupOf (pointer : String) (block : Node) : String × Option String :=
  match block with
  | .mapping o entries => (Pointer.child pointer "group", text? (Mapping.get? ⟨o, entries⟩ "group"))
  | node => (pointer, text? (some node))

def concurrencyGroup (w : Workflow) (s : Settings) : List Draft :=
  let blocks := ("/concurrency", w.concurrency) ::
    w.jobs.map fun j => (Pointer.child j.path "concurrency", j.concurrency)
  blocks.filterMap fun (pointer, block) =>
    block.bind fun block =>
      let (location, group) := groupOf pointer block
      if group.any (groupPattern s.groupFallback).occurs then none
      else some {
        location
        title := "Concurrency group does not fall back from the PR head ref"
        why := "Without the fallback, push runs and pull request runs share or split groups " ++
          "unpredictably."
        change := "Build the group from the head ref with a fallback to the current ref."
        patch := "group: " ++ groupExample s.groupFallback }

/-- The first deletion among the lines of a script that nothing guards. A line without a deletion
guards all later ones if it tests whether something exists; a test before a deletion in its own line
guards that one. -/
def unguardedDelete? : Bool → List (List Char) → Option (List Char)
  | _, [] => none
  | guarded, line :: rest =>
    match destructive.search line with
    | none => unguardedDelete? (guarded || existenceCheck.occursIn line) rest
    | some (start, stop) =>
      if guarded || existenceCheck.occursIn (line.take start.offset) then
        unguardedDelete? guarded rest
      else some (Pattern.between start stop)

def destructiveCommand (w : Workflow) (_ : Settings) : List Draft :=
  w.steps.filterMap fun (j, st) =>
    if st.continueOnError then none
    else
      (st.run.bind fun run => unguardedDelete? false (Script.logicalLineChars run.value)).map
        fun command => {
          location := Pointer.child st.path "run"
          title := "Unguarded recursive delete in " ++ st.label j
          why := "Re-running the step on a different workspace state can delete the wrong tree " ++
            "or fail."
          change := "Check that the target exists first, " ++
            "or mark the step `continue-on-error: true`."
          patch := "if [ -d \"<dir>\" ]; then " ++ .ofList (Text.trimChars command) ++
            " \"<dir>\"; fi" }

/-- What is wrong with the version of an action. -/
def refProblem? (value : String) : Option String :=
  if !value.toList.contains '@' then some (code value ++ " is not pinned to a version")
  else if movingRefs.contains (Text.lower (.ofList (Text.afterLast '@' value.toList))) then
    some (code value ++ " tracks a moving branch")
  else none

/-- The actions and workflows that a job uses, with their pointers. -/
def usesOf (j : Job) : List (String × String) :=
  (j.uses.map fun u => (Pointer.child j.path "uses", u.value)).toList ++
    j.steps.filterMap fun st => st.uses.map fun u => (Pointer.child st.path "uses", u.value)

def actionRefPinning (w : Workflow) (_ : Settings) : List Draft :=
  (w.jobs.flatMap usesOf).filterMap fun (location, uses) =>
    let value := Text.trim uses
    if Text.startsWith value "./" || Text.startsWith value "docker://" ||
        Expression.isWrapped value then none
    else (refProblem? value).map fun title => {
      location, title
      why := "Unpinned actions pull whatever the upstream branch holds at run time."
      change := "Pin to a release tag or, preferably, a full commit SHA."
      patch := "uses: " ++ .ofList (Text.beforeFirst '@' value.toList) ++
        "@<commit-sha>  # vX.Y.Z" }

/-- The first expression of a script that strangers can fill. -/
def untrustedExpression? (script : String) : Option String :=
  ((Expression.inners script.toList).find? untrustedInput.occursIn).map Expression.written

def scriptInjection (w : Workflow) (_ : Settings) : List Draft :=
  w.steps.filterMap fun (j, st) =>
    (st.run.bind fun run => untrustedExpression? run.value).map fun expression => {
      location := Pointer.child st.path "run"
      title := "Untrusted input " ++ code expression ++ " interpolated into " ++ st.label j
      why := "Attacker-controlled text is spliced into the shell script before it runs."
      change := "Pass the value through an environment variable and quote it."
      patch := "env:\n  UNTRUSTED_VALUE: " ++ expression ++ "\nrun: echo \"$UNTRUSTED_VALUE\"" }

def untrustedCheckout (w : Workflow) (_ : Settings) : List Draft :=
  if !w.events.contains "pull_request_target" then []
  else w.steps.filterMap fun (j, st) =>
    let fromHead (key : String) : Bool := (text? (st.input key)).any pullRequestHead.occurs
    if st.action == "actions/checkout" && (fromHead "ref" || fromHead "repository") then some {
      location := Pointer.child st.path "with"
      title := "`pull_request_target` checks out the pull request head in " ++ st.label j
      why := "The job runs with repository secrets and write token while executing fork code."
      change := "Use `pull_request` for untrusted code, or check out the base ref only." }
    else none

def noJobs (w : Workflow) (_ : Settings) : List Draft :=
  if !w.jobs.isEmpty then []
  else [{
    location := "/jobs"
    title := "No jobs found"
    why := "A workflow without jobs does nothing, or the document is not a workflow."
    change := "Define at least one job under `jobs`." }]

/-- The rules about security and reliability. -/
def rules : List Rule := [
  .total "top-level-permissions" .triggersPermissions .mustFix
    "Workflow declares top-level permissions" topLevelPermissions,
  .total "permissions-write-all" .triggersPermissions .mustFix
    "No blanket write-all permissions" writeAllPermissions,
  .total "runner-pinning" .pinningTimeouts .mustFix
    "Runner images are pinned, not -latest" runnerPinning,
  .total "slim-runner-secrets" .triggersPermissions .mustFix
    "Unpinned slim runners do not handle secrets unreviewed" slimRunnerSecrets,
  .total "secret-scope" .triggersPermissions .mustFix
    "Secrets are scoped to the step that uses them" secretScope,
  .total "shell-strict-mode" .idempotentOperations .mustFix
    "Multi-line scripts start with set -euo pipefail" shellStrictMode,
  .total "job-timeout" .pinningTimeouts .mustFix
    "Jobs declare a bounded timeout-minutes" jobTimeout,
  .total "concurrency-required" .concurrency .mustFix
    "push + pull_request workflows declare concurrency" concurrencyRequired,
  .total "concurrency-group-fallback" .concurrency .improvement
    "Concurrency groups fall back from the head ref" concurrencyGroup,
  .total "destructive-command" .idempotentOperations .mustFix
    "Recursive deletes are guarded" destructiveCommand,
  .total "action-ref-pinning" .pinningTimeouts .mustFix
    "Actions are pinned to a version" actionRefPinning,
  .total "script-injection" .triggersPermissions .mustFix
    "Untrusted event fields are not interpolated into scripts" scriptInjection,
  .total "untrusted-checkout" .triggersPermissions .mustFix
    "pull_request_target does not check out PR code" untrustedCheckout,
  .total "no-jobs" .triggersPermissions .mustFix "Workflow defines jobs" noJobs]

end FlowLint.Security
