import FlowLint.Text.Lines
import FlowLint.Text.Pieces

/-! Shell scripts as lists of commands: `logicalLines` joins continued lines and drops blank lines
and comments. -/

namespace FlowLint.Script

/-- The logical lines of the physical lines that are left, behind the unfinished line `pending`. A
line that ends with a backslash is continued; lines are joined by a space. -/
def linesFrom (pending : List Char) : List (List Char) → List (List Char)
  | [] => if pending.isEmpty then [] else [pending]
  | raw :: rest =>
    let line := if pending.isEmpty then Text.trimChars raw
      else pending ++ ' ' :: Text.trimChars raw
    if line.getLast? == some '\\' then linesFrom (Text.dropEndBlanks line.dropLast) rest
    else if line.isEmpty || line.head? == some '#' then linesFrom [] rest
    else line :: linesFrom [] rest

def logicalLineChars (script : String) : List (List Char) :=
  linesFrom [] (Text.lineList script.toList)

def logicalLines (script : String) : List String := (logicalLineChars script).map .ofList

example : logicalLines "a \\\n  b\n\n# c\nd\\" = ["a b", "d"] := by decide +kernel

end FlowLint.Script
