import FlowLint.Json.Reader
import FlowLint.Settings.Reading
import FlowLint.Text.Lines

/-! Where settings come from: a file of options or, if there is none, variables of the environment.
-/

namespace FlowLint

/-- The variables of the environment and the text of the file of options, if there is one. -/
structure OptionSource where
  «variables» : List (String × String) := []
  file : Option String := none
  deriving Repr

/-- Why there are no settings. -/
inductive OptionError where
  /-- The file of options is no JSON text. -/
  | file (error : Json.ReadError)
  /-- The options are no settings. -/
  | issues (all : List Json.Issue)
  | raised (error : Raised)
  deriving Repr

namespace OptionSource

/-- The texts between commas, without blanks around them and without empty ones. -/
def commaList (s : String) : List String :=
  ((Text.pieces (· == ',') s.toList).map Text.trimChars).filterMap fun p =>
    if p.isEmpty then none else some (.ofList p)

def optionFor (source : OptionSource) (s : Setting) : Option (String × Json) :=
  (source.«variables».lookup s.variableName).map fun value =>
    (s.name, if s == .exemptRunners then .ofStrings (commaList value) else .string value)

/-- The options of a source, before they are read as settings. -/
def options (source : OptionSource) : Except Json.ReadError Json :=
  match source.file with
  | some text => Json.read (.ofList (Text.unifyBreaks text.toList))
  | none => .ok (.object (Setting.all.filterMap source.optionFor))

def settings (reader : PatternReader) (source : OptionSource) : Except OptionError Settings :=
  match source.options with
  | .error e => .error (.file e)
  | .ok v => (Settings.ofJson reader v).toExcept .issues .raised

end OptionSource

end FlowLint
