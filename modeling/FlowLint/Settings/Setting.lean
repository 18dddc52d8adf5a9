import FlowLint.Json.Shape
import FlowLint.Settings

/-! The settings by themselves: their names in messages and in the environment, what each of them
can be, and how it is read and written. `Setting.collect` makes one reading of a reading for each. -/

namespace FlowLint

open Json (Checked)

/-- A setting by itself, without a value. -/
inductive Setting where
  | casing
  | groupFallback
  | maxTimeoutMinutes
  | maxRetentionDays
  | maxScriptLines
  | denylist
  | exemptRunners
  | justification
  | maxWorkers
  deriving DecidableEq, Repr

namespace Shape

def limit (v : Json) : Checked Limit :=
  (Json.Shape.integer v).andThen fun n =>
    if h : 1 ≤ n.toNat then .ok ⟨n.toNat, h⟩ else .fail .belowOne v

/-- Reads a search pattern. What is no pattern, or has a part without a value, is refused; any other
error ends the reading. -/
def pattern (reader : PatternReader) (v : Json) : Checked SearchPattern :=
  (Json.Shape.text v).andThen fun s =>
    match SearchPattern.read reader s with
    | .ok p => .ok p
    | .error (.mistake message) => .fail (.refused ("invalid regular expression: " ++ message)) v
    | .error (.value message) => .fail (.refused message) v
    | .error (.raised error) => .raised error

def casing : Json → Checked Casing := Json.Shape.named Casing.all Casing.name .notChoice

def groupFallback : Json → Checked GroupFallback :=
  Json.Shape.named GroupFallback.all GroupFallback.name .notChoice

end Shape

namespace Setting

/-- All settings, in the order in which they are read. -/
def all : List Setting := [
  .casing, .groupFallback, .maxTimeoutMinutes, .maxRetentionDays, .maxScriptLines, .denylist,
  .exemptRunners, .justification, .maxWorkers]

def name : Setting → String
  | .casing => "casing_policy"
  | .groupFallback => "concurrency_group_pattern"
  | .maxTimeoutMinutes => "max_timeout_minutes"
  | .maxRetentionDays => "max_retention_days"
  | .maxScriptLines => "max_inline_script_lines"
  | .denylist => "runner_denylist_pattern"
  | .exemptRunners => "exempt_runners"
  | .justification => "justification_pattern"
  | .maxWorkers => "max_workers"

def variableName : Setting → String
  | .casing => "WFREVIEW_CASING_POLICY"
  | .groupFallback => "WFREVIEW_CONCURRENCY_GROUP_PATTERN"
  | .maxTimeoutMinutes => "WFREVIEW_MAX_TIMEOUT_MINUTES"
  | .maxRetentionDays => "WFREVIEW_MAX_RETENTION_DAYS"
  | .maxScriptLines => "WFREVIEW_MAX_INLINE_SCRIPT_LINES"
  | .denylist => "WFREVIEW_RUNNER_DENYLIST_PATTERN"
  | .exemptRunners => "WFREVIEW_EXEMPT_RUNNERS"
  | .justification => "WFREVIEW_JUSTIFICATION_PATTERN"
  | .maxWorkers => "WFREVIEW_MAX_WORKERS"

/-- What a setting can be. -/
def Value : Setting → Type
  | .casing => Casing
  | .groupFallback => GroupFallback
  | .maxTimeoutMinutes | .maxRetentionDays | .maxScriptLines => Limit
  | .denylist | .justification => SearchPattern
  | .exemptRunners => List String
  | .maxWorkers => Option Limit

def read (reader : PatternReader) : (f : Setting) → Json → Checked f.Value
  | .casing => Shape.casing
  | .groupFallback => Shape.groupFallback
  | .maxTimeoutMinutes | .maxRetentionDays | .maxScriptLines => Shape.limit
  | .denylist | .justification => Shape.pattern reader
  | .exemptRunners => Json.Shape.list Json.Shape.text .notTuple
  | .maxWorkers => Json.Shape.optional Shape.limit

def write : (f : Setting) → f.Value → Json
  | .casing, c => .string (Casing.name c)
  | .groupFallback, g => .string (GroupFallback.name g)
  | .maxTimeoutMinutes, l | .maxRetentionDays, l | .maxScriptLines, l => .ofNat (Limit.value l)
  | .denylist, p | .justification, p => .string (SearchPattern.text p)
  | .exemptRunners, items => .ofStrings items
  | .maxWorkers, l => .ofOption (fun l => .ofNat l.value) (l : Option Limit)

/-- Reads something for each setting, in the order of the settings. -/
def collect {V : Setting → Type} (read : (f : Setting) → Checked (V f)) :
    Checked ((f : Setting) → V f) :=
  gather <$> read .casing <*> read .groupFallback <*> read .maxTimeoutMinutes
    <*> read .maxRetentionDays <*> read .maxScriptLines <*> read .denylist
    <*> read .exemptRunners <*> read .justification <*> read .maxWorkers
where
  gather (casing : V .casing) (groupFallback : V .groupFallback)
      (maxTimeoutMinutes : V .maxTimeoutMinutes) (maxRetentionDays : V .maxRetentionDays)
      (maxScriptLines : V .maxScriptLines) (denylist : V .denylist)
      (exemptRunners : V .exemptRunners) (justification : V .justification)
      (maxWorkers : V .maxWorkers) : (f : Setting) → V f
    | .casing => casing
    | .groupFallback => groupFallback
    | .maxTimeoutMinutes => maxTimeoutMinutes
    | .maxRetentionDays => maxRetentionDays
    | .maxScriptLines => maxScriptLines
    | .denylist => denylist
    | .exemptRunners => exemptRunners
    | .justification => justification
    | .maxWorkers => maxWorkers

end Setting

/-- The value of a setting. -/
def Settings.get (s : Settings) : (f : Setting) → f.Value
  | .casing => s.casing
  | .groupFallback => s.groupFallback
  | .maxTimeoutMinutes => s.maxTimeoutMinutes
  | .maxRetentionDays => s.maxRetentionDays
  | .maxScriptLines => s.maxScriptLines
  | .denylist => s.denylist
  | .exemptRunners => s.exemptRunners
  | .justification => s.justification
  | .maxWorkers => s.maxWorkers

/-- The settings with the given values. -/
def Settings.of (value : (f : Setting) → f.Value) : Settings where
  casing := value .casing
  groupFallback := value .groupFallback
  maxTimeoutMinutes := value .maxTimeoutMinutes
  maxRetentionDays := value .maxRetentionDays
  maxScriptLines := value .maxScriptLines
  denylist := value .denylist
  exemptRunners := value .exemptRunners
  justification := value .justification
  maxWorkers := value .maxWorkers

end FlowLint
