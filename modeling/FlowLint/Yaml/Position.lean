/-! Places in a text, counted from zero. Only `\n`, `\r\n` and a `\r` alone begin a new line; a byte
order mark has no width. -/

namespace FlowLint.Yaml

/-- A place in a text: its offset, its line and its column. -/
structure Position where
  index : Nat
  line : Nat
  column : Nat
  deriving DecidableEq, Repr, Inhabited

/-- The place where a text begins. -/
def Position.zero : Position := ⟨0, 0, 0⟩

/-- The place behind the character `c`, before the character `next`. -/
def Position.after (p : Position) (c : Char) (next : Option Char) : Position :=
  if c == '\n' || (c == '\r' && next != some '\n') then ⟨p.index + 1, p.line + 1, 0⟩
  else if c == '\uFEFF' then { p with index := p.index + 1 }
  else { p with index := p.index + 1, column := p.column + 1 }

/-- The words that name a place in a message. -/
def Position.text (p : Position) : String :=
  s!"  in \"<file>\", line {p.line + 1}, column {p.column + 1}"

end FlowLint.Yaml
