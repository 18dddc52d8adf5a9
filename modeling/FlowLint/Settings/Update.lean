import FlowLint.Settings.Reading

/-! Updates: values for some of the settings. A null member of an update is as good as none, and the
patterns of an update are only read when it is applied. -/

namespace FlowLint

open Json (Checked)

namespace Setting

/-- What an update can hold for a setting: of a pattern the text alone. -/
def Given : Setting → Type
  | .casing => Casing
  | .groupFallback => GroupFallback
  | .maxTimeoutMinutes | .maxRetentionDays | .maxScriptLines | .maxWorkers => Limit
  | .denylist | .justification => String
  | .exemptRunners => List String

def readGiven : (f : Setting) → Json → Checked f.Given
  | .casing => Shape.casing
  | .groupFallback => Shape.groupFallback
  | .maxTimeoutMinutes | .maxRetentionDays | .maxScriptLines | .maxWorkers => Shape.limit
  | .denylist | .justification => Json.Shape.text
  | .exemptRunners => Json.Shape.list Json.Shape.text .notList

def writeGiven : (f : Setting) → f.Given → Json
  | .casing, c => .string (Casing.name c)
  | .groupFallback, g => .string (GroupFallback.name g)
  | .maxTimeoutMinutes, l | .maxRetentionDays, l | .maxScriptLines, l | .maxWorkers, l =>
    .ofNat (Limit.value l)
  | .denylist, s | .justification, s => .string s
  | .exemptRunners, items => .ofStrings items

end Setting

/-- New values for some of the settings. -/
structure Update where
  given : (f : Setting) → Option f.Given

namespace Update

def ofMembers (members : List (String × Json)) : Checked Update :=
  Update.mk <$> Setting.collect fun f =>
    Json.Shape.member f.name (Json.Shape.optional f.readGiven) none members

def ofJson : Json → Checked Update := Json.Shape.record ofMembers .notBody

def members (u : Update) : List (String × Json) :=
  Setting.all.filterMap fun f => (u.given f).map fun g => (f.name, f.writeGiven g)

def apply (reader : PatternReader) (u : Update) (s : Settings) : Checked Settings :=
  s.override reader u.members

end Update

end FlowLint
