import FlowLint.Ranking

/-! The report of a review: a summary, the findings of each severity, and the checklist. -/

namespace FlowLint.Report

/-- How the summary calls the workflow. -/
def subject (w : Workflow) : String :=
  match w.name with
  | some name => "Workflow '" ++ name.value ++ "'"
  | none => "This workflow"

def triggerPart (w : Workflow) : String :=
  if w.triggers.isEmpty then "has no triggers"
  else "runs on " ++ Text.join ", " w.events

def jobsPart (w : Workflow) : String :=
  if w.jobs.isEmpty then "defines no jobs"
  else "defines " ++ plural w.jobs.length "job" ++ " (" ++
    Text.join ", " (w.jobs.map (·.id)) ++ ")"

def verdict (findings : List Finding) : String :=
  if findings.isEmpty then "No issues found."
  else
    "Found " ++ plural (withSeverity .mustFix findings).length "must-fix issue" ++ " and " ++
      plural (withSeverity .improvement findings).length "improvement" ++ "."

def summary (w : Workflow) (findings : List Finding) : String :=
  subject w ++ " " ++ triggerPart w ++ " and " ++ jobsPart w ++ ". " ++ verdict findings

/-- The lines of a patch, indented, between fences. -/
def patchLines (patch : String) : List String :=
  ["   - Patch:", "     ```yaml"] ++
    (Text.lines patch).map (fun l => if l.isEmpty then "" else "     " ++ l) ++ ["     ```"]

/-- A line with a heading, unless there is nothing to say. -/
def remark (heading text : String) : List String :=
  if text.isEmpty then [] else ["   - " ++ heading ++ ": " ++ text]

def findingLines (number : Nat) (f : Finding) : List String :=
  let location := if f.location.isEmpty then "/" else f.location
  [s!"{number}. **" ++ f.title ++ "** (" ++ code f.ruleId ++ " at " ++ code location ++ ")"] ++
    remark "Why it matters" f.why ++ remark "Requested change" f.change ++
    (match f.patch with
      | some patch => if patch.isEmpty then [] else patchLines patch
      | none => [])

def numbered (first : Nat) : List Finding → List String
  | [] => []
  | f :: rest => findingLines first f ++ numbered (first + 1) rest

/-- A heading and the findings below it. -/
def sectionLines (title : String) (findings : List Finding) : List String :=
  ("## " ++ title) :: if findings.isEmpty then ["None."] else numbered 1 findings

def checklistLine (i : ChecklistItem) : String :=
  if i.flagged then "- [x] " ++ i.category.label ++ " (" ++ plural i.count "finding" ++ ")"
  else "- [ ] " ++ i.category.label

def lines (w : Workflow) (findings : List Finding) : List String :=
  ["## Summary", summary w findings, ""] ++
    sectionLines "Must-fix" (withSeverity .mustFix findings) ++ [""] ++
    sectionLines "Improvements" (withSeverity .improvement findings) ++
    ["", "## Quick Checklist"] ++ (checklist findings).map checklistLine

def render (w : Workflow) (findings : List Finding) : String :=
  Text.join "\n" (lines w findings) ++ "\n"

end FlowLint.Report
