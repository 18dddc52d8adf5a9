import FlowLint.Yaml.Event.Grammar

/-! Where events stand. An event begins where a token begins or ends, and a scalar has its own text
in a token, or it has none: no place of it is moved but the first, which an anchor or a tag before
the scalar may take (`Event.Stands`). -/

namespace FlowLint.Yaml

/-- A token that says something of the node behind it. -/
def Token.Kind.isProperty : Token.Kind → Bool
  | .anchor _ | .tag _ => true
  | _ => false

/-- The own text of a scalar among the events stands between the last of the places and the one
before it. -/
inductive Event.OwnText (tokens : List VersionedToken) :
    String → ScalarStyle → Position → Position → Position → Prop
  /-- The scalar is a token. -/
  | bare {t : VersionedToken} {value : String} {style : ScalarStyle} (mem : t ∈ tokens)
      (kind : t.token.kind = .scalar value style) :
      OwnText tokens value style t.token.start t.token.stop t.token.start
  /-- The scalar begins with an anchor or a tag and ends with a token. -/
  | behind {t u : VersionedToken} {value : String} {style : ScalarStyle} (mem : t ∈ tokens)
      (kind : t.token.kind = .scalar value style) (before : u ∈ tokens)
      (property : u.token.kind.isProperty = true) :
      OwnText tokens value style u.token.start t.token.stop t.token.start
  /-- The scalar is empty and has no text. -/
  | empty {start stop : Position} : OwnText tokens "" .plain start stop stop

/-- The event begins at such a place, if it says where. -/
def Event.Begins (places : Position → Prop) : Event → Prop
  | .documentStart p | .alias _ p | .scalar _ _ _ p _ | .sequenceStart _ _ p
  | .mappingStart _ _ p => places p
  | .documentEnd | .sequenceEnd | .mappingEnd => True

/-- A token begins or ends there. -/
def Marks (tokens : List VersionedToken) (p : Position) : Prop :=
  ∃ t ∈ tokens, t.token.start = p ∨ t.token.stop = p

/-- The event begins at a place of the tokens, if it says where, and if it is a scalar it has its
text among them. -/
def Event.Stands (tokens : List VersionedToken) : Event → Prop
  | .scalar value style _ start stop =>
    Marks tokens start ∧ ∃ own, OwnText tokens value style start stop own
  | .documentStart p | .alias _ p | .sequenceStart _ _ p | .mappingStart _ _ p => Marks tokens p
  | .documentEnd | .sequenceEnd | .mappingEnd => True

variable {T : List VersionedToken}

theorem Event.stands_empty {start stop : Position} {anchor : Option String} (h : Marks T start) :
    Event.Stands T (.scalar "" .plain anchor start stop) := ⟨h, stop, .empty⟩

theorem Event.Stands.begins {e : Event} {places : Position → Prop} (h : e.Stands T)
    (marked : ∀ p, Marks T p → places p) : e.Begins places := by
  cases e with
  | documentEnd | sequenceEnd | mappingEnd => trivial
  | scalar => exact marked _ h.1
  | documentStart | «alias» | sequenceStart | mappingStart => exact marked _ h

/-- The place in the goal that an event may take is one of a token. -/
def Goal.Placed (T : List VersionedToken) : Goal → Prop
  | .pairKey indicator => Marks T indicator
  | _ => True

namespace Parse.Properties

/-- Where the properties begin stands the token of one of them. -/
def Begun (T : List VersionedToken) (props : Properties) : Prop :=
  ∀ span ∈ props.span, ∃ u ∈ T, u.token.kind.isProperty = true ∧ u.token.start = span.1

variable {props : Properties} {t : VersionedToken}

theorem Begun.marks (begun : props.Begun T) (mem : t ∈ T) :
    Marks T ((props.span.map (·.1)).getD t.token.start) := by
  cases span : props.span with
  | none => exact ⟨t, mem, .inl rfl⟩
  | some span =>
    obtain ⟨u, before, -, start⟩ := begun _ span
    exact ⟨u, before, .inl start⟩

theorem Begun.stands_scalar {value : String} {style : ScalarStyle} (begun : props.Begun T)
    (mem : t ∈ T) (kind : t.token.kind = .scalar value style) :
    Event.Stands T (.scalar value style props.anchor
      ((props.span.map (·.1)).getD t.token.start) t.token.stop) := by
  refine ⟨begun.marks mem, t.token.start, ?_⟩
  cases span : props.span with
  | none => exact .bare mem kind
  | some span =>
    obtain ⟨u, before, property, start⟩ := begun _ span
    rw [Option.map_some, Option.getD_some, ← start]
    exact .behind mem kind before property

end Parse.Properties

end FlowLint.Yaml
