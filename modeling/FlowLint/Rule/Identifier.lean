import FlowLint.Text.Case
import FlowLint.Text.Pieces

/-! Identifiers in snake case, and the one that is proposed for an identifier in another case. -/

namespace FlowLint.Identifier

/-- A small letter of the ASCII alphabet. -/
def isSmall (c : Char) : Bool := 'a' ≤ c && c ≤ 'z'

def isSmallOrDigit (c : Char) : Bool := isSmall c || ('0' ≤ c && c ≤ '9')

/-- The text is a small letter followed by small letters, digits and low lines; one line feed may
end it. -/
def isSnakeCase (s : List Char) : Bool :=
  match s with
  | [] => false
  | c :: rest =>
    let tail := rest.dropWhile fun c => isSmallOrDigit c || c == '_'
    isSmall c && (tail.isEmpty || tail == ['\n'])

/-- Each run of other characters than small letters and digits becomes one low line. The flag tells
that such a run has begun. -/
def joinRuns : Bool → List Char → List Char
  | _, [] => []
  | inRun, c :: s =>
    if isSmallOrDigit c then c :: joinRuns false s
    else if inRun then joinRuns true s
    else '_' :: joinRuns true s

def stripLowLines (s : List Char) : List Char :=
  ((s.dropWhile (· == '_')).reverse.dropWhile (· == '_')).reverse

/-- The identifier proposed for a text. -/
def suggest (s : String) : String :=
  let found := stripLowLines (joinRuns false (Text.lower s).toList)
  if found.isEmpty then "value" else .ofList found

example : suggest "My-Output  X_" = "my_output_x" ∧ suggest "--" = "value" := by decide +kernel

end FlowLint.Identifier
