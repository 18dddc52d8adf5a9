import FlowLint.Yaml.Position

/-! Tokens: the smallest parts of a YAML text that have a meaning. -/

namespace FlowLint.Yaml

/-- A version of YAML, as a `%YAML` directive names it. -/
structure Version where
  major : Nat
  minor : Nat
  deriving DecidableEq, Repr, Inhabited

/-- The version of a text that names none. -/
def Version.current : Version := ⟨1, 2⟩

/-- Version 1.1 has rules of its own for plain scalars, values in flow collections and document
ends. -/
def Version.isOld (v : Version) : Bool := v == ⟨1, 1⟩

/-- The version comes after 1.1. -/
def Version.isNew (v : Version) : Bool := 1 < v.major || (v.major == 1 && 1 < v.minor)

/-- How a scalar is written. -/
inductive ScalarStyle where
  | plain
  | singleQuoted
  | doubleQuoted
  | literal
  | folded
  deriving DecidableEq, Repr, Inhabited

/-- What a line that begins with `%` says. -/
inductive Directive where
  | version (v : Version)
  | tagHandle (handle : String)
  | other
  deriving DecidableEq, Repr

/-- What a token is. -/
inductive Token.Kind where
  | directive (d : Directive)
  | documentStart
  | documentEnd
  | streamEnd
  | blockSequenceStart
  | blockMappingStart
  | blockEnd
  | flowSequenceStart
  | flowMappingStart
  | flowSequenceEnd
  | flowMappingEnd
  | key
  | value
  | blockEntry
  | flowEntry
  | alias (name : String)
  | anchor (name : String)
  | tag (handle : Option String)
  | scalar (value : String) (style : ScalarStyle)
  deriving DecidableEq, Repr

/-- A token with the places where it starts and stops. -/
structure Token where
  kind : Token.Kind
  start : Position
  stop : Position
  deriving DecidableEq, Repr

def Token.Kind.name : Token.Kind → String
  | .directive _ => "<directive>"
  | .documentStart => "<document start>"
  | .documentEnd => "<document end>"
  | .streamEnd => "<stream end>"
  | .blockSequenceStart => "<block sequence start>"
  | .blockMappingStart => "<block mapping start>"
  | .blockEnd => "<block end>"
  | .flowSequenceStart => "["
  | .flowMappingStart => "\x7b"
  | .flowSequenceEnd => "]"
  | .flowMappingEnd => "\x7d"
  | .key => "?"
  | .value => ":"
  | .blockEntry => "-"
  | .flowEntry => ","
  | .alias _ => "<alias>"
  | .anchor _ => "<anchor>"
  | .tag _ => "<tag>"
  | .scalar _ _ => "<scalar>"

end FlowLint.Yaml
