import FlowLint.Yaml.Fault

/-! Events: a YAML text as a tree written from left to right. -/

namespace FlowLint.Yaml

/-- One step through the tree of a text. -/
inductive Event where
  | documentStart (start : Position)
  | documentEnd
  | alias (name : String) (start : Position)
  | scalar (value : String) (style : ScalarStyle) (anchor : Option String) (start stop : Position)
  | sequenceStart (flow : Bool) (anchor : Option String) (start : Position)
  | sequenceEnd
  | mappingStart (flow : Bool) (anchor : Option String) (start : Position)
  | mappingEnd
  deriving DecidableEq, Repr

/-- The events of a text up to the fault that stops the reading, if there is one. -/
structure EventStream where
  events : List Event
  fault : Option Fault := none

end FlowLint.Yaml
