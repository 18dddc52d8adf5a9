import FlowLint.Settings.Setting

/-! Settings as JSON objects. `Settings.ofMembers` reads them, with a default for what is not there;
`Settings.members` writes them; `Settings.override` puts members over those of given settings and
reads the result. -/

namespace FlowLint

open Json (Checked)

namespace Settings

variable (reader : PatternReader)

def ofMembers (members : List (String × Json)) : Checked Settings :=
  Settings.of <$> Setting.collect fun f =>
    Json.Shape.member f.name (f.read reader) (Settings.get default f) members

def ofJson : Json → Checked Settings :=
  Json.Shape.record (ofMembers reader) (.notRecord "LintConfig")

def members (s : Settings) : List (String × Json) :=
  Setting.all.map fun f => (f.name, f.write (s.get f))

def toJson (s : Settings) : Json := .object s.members

/-- The settings with some members put over theirs. -/
def override (s : Settings) (changes : List (String × Json)) : Checked Settings :=
  ofMembers reader (changes.foldl (fun members (name, v) => Json.insert name v members) s.members)

end Settings

end FlowLint
