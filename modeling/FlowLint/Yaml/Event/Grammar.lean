import FlowLint.Yaml.Event
import FlowLint.Yaml.Token.Lexer

/-! From tokens to events. The grammar needs one token of lookahead: a stack of goals says what has
to come, and a step works on the goal on top. `Event.ofText` gives the events of a text; those
before a fault come with it. -/

namespace FlowLint.Yaml

/-- What has to come next. The places in goals are those where the collections begin. -/
inductive Goal where
  /-- A document, which may begin without a marker if the flag is set. -/
  | document (bare : Bool)
  /-- What follows the marker of a document start. -/
  | content
  | documentEnd
  /-- A node. In a block it may be a block collection; as the key or the value of a block mapping it
  may be a sequence without indentation of its own. -/
  | node (block indentless : Bool)
  | sequenceEntry (start : Position)
  | indentlessEntry
  | mappingKey (start : Position)
  | mappingValue (start : Position)
  | flowEntry (start : Position) (first : Bool)
  /-- The parts of a single pair in a flow sequence, behind the indicator of its key. -/
  | pairKey (indicator : Position)
  | pairValue
  | pairEnd
  | flowKey (start : Position) (first : Bool)
  | flowValue (start : Position)
  | flowEmptyValue (start : Position)
  deriving DecidableEq, Repr

structure Parser where
  tokens : List VersionedToken
  /-- What stops the tokens. -/
  barrier : Option Fault
  goals : List Goal
  /-- The tag handles that the document may use. -/
  handles : List String

/-- A step of the parser. It fails with the fault that stops the events, or with none at the end of
the text. -/
abbrev Parse (α : Type) : Type := StateT Parser (Except (Option Fault)) α

/-- The handles that need no definition. -/
def defaultHandles : List String := ["!", "!!"]

namespace Parse

def peek : Parse VersionedToken := do
  let s ← get
  match s.tokens with
  | t :: _ => return t
  | [] => throw s.barrier

def kind : Parse Token.Kind := return (← peek).token.kind

def start : Parse Position := return (← peek).token.start

def next : Parse Token := do
  let t ← peek
  modify fun s => { s with tokens := s.tokens.tail }
  return t.token

def sees (kinds : List Token.Kind) : Parse Bool := return kinds.contains (← kind)

def await (goals : List Goal) : Parse Unit :=
  modify fun s => { s with goals := goals ++ s.goals }

def fail {α : Type} (fault : Fault) : Parse α := throw (some fault)

def emptyScalar (p : Position) : List Event := [.scalar "" .plain none p p]

/-- Reads the directives before a document; the handles that they define. -/
def directives : Nat → Bool → List String → Parse (List String)
  | 0, _, handles => return handles
  | fuel + 1, versioned, handles => do
    let t := (← peek).token
    match t.kind with
    | .directive d =>
      let _ ← next
      match d with
      | .version v =>
        if versioned then fail (.bare .duplicateVersion t.start)
        if v.major != 1 then fail (.bare .incompatibleVersion t.start)
        directives fuel true handles
      | .tagHandle h =>
        if handles.contains h then fail (.bare (.duplicateHandle h) t.start)
        directives fuel versioned (h :: handles)
      | .other => directives fuel versioned handles
    | _ => return handles

/-- Passes over further markers of document ends. -/
def skipEnds : Nat → Parse Unit
  | 0 => return
  | fuel + 1 => do
    if (← kind) == .documentEnd then
      let _ ← next
      skipEnds fuel

/-- A document that begins with its marker, or the end of the text. -/
def markedDocument : Parse (List Event) := do
  let fuel := (← get).tokens.length + 1
  skipEnds fuel
  if (← kind) == .streamEnd then throw none
  let handles ← directives fuel false []
  let t := (← peek).token
  if t.kind != .documentStart then fail (.bare (.wantedDocumentStart t.kind) t.start)
  let _ ← next
  modify ({ · with handles := handles ++ defaultHandles })
  await [.content, .documentEnd]
  return [.documentStart t.start]

def document (bare : Bool) : Parse (List Event) := do
  let t := (← peek).token
  let marked := match t.kind with
    | .directive _ | .documentStart | .streamEnd => true
    | _ => false
  if bare && !marked then
    modify ({ · with handles := defaultHandles })
    await [.node true false, .documentEnd]
    return [.documentStart t.start]
  else markedDocument

/-- What follows the marker of a document start. -/
def content : Parse (List Event) := do
  let t := (← peek).token
  match t.kind with
  | .directive _ | .documentStart | .documentEnd | .streamEnd => return emptyScalar t.start
  | _ =>
    await [.node true false]
    return []

/-- The end of a document. After an explicit end the next document needs no marker, but in version
1.1. -/
def documentEnd : Parse (List Event) := do
  let t := (← peek).token
  let explicit := t.kind == .documentEnd
  if explicit then
    let _ ← next
    let u := (← peek).token
    if u.kind != .streamEnd && u.start.line == t.stop.line then
      fail (.bare (.contentAfterEnd u.kind) u.start)
  await [.document (explicit && !(← peek).version.isOld)]
  return [.documentEnd]

/-- The anchor and the tag before a node. -/
structure Properties where
  anchor : Option String := none
  tagged : Bool := false
  /-- Where the properties begin and end. -/
  span : Option (Position × Position) := none

/-- A tag with a handle needs a definition of the handle. -/
def checkHandle (handle : Option String) (start place : Position) : Parse Unit := do
  if let some h := handle then
    if !(← get).handles.contains h then fail (.during .node start (.undefinedHandle h) place)

/-- Reads an anchor and a tag, in either order. A tag before an anchor does not count for the place
of the node. -/
def properties : Parse Properties := do
  let t := (← peek).token
  match t.kind with
  | .anchor name =>
    let _ ← next
    let u := (← peek).token
    match u.kind with
    | .tag handle =>
      let _ ← next
      checkHandle handle t.start u.start
      return ⟨some name, true, some (t.start, u.stop)⟩
    | _ => return ⟨some name, false, some (t.start, t.stop)⟩
  | .tag handle =>
    let _ ← next
    let u := (← peek).token
    match u.kind with
    | .anchor name =>
      let _ ← next
      checkHandle handle u.start u.start
      return ⟨some name, true, some (u.start, u.stop)⟩
    | _ =>
      checkHandle handle t.start t.start
      return ⟨none, true, some (t.start, t.stop)⟩
  | _ => return {}

def node (block indentless : Bool) : Parse (List Event) := do
  let t := (← peek).token
  if let .alias name := t.kind then
    let _ ← next
    return [.alias name t.start]
  let props ← properties
  let t := (← peek).token
  let start := (props.span.map (·.1)).getD t.start
  match t.kind with
  | .blockEntry =>
    if indentless then
      await [.indentlessEntry]
      return [.sequenceStart false props.anchor start]
  | .scalar value style =>
    let _ ← next
    return [.scalar value style props.anchor start t.stop]
  | .flowSequenceStart =>
    let _ ← next
    await [.flowEntry t.start true]
    return [.sequenceStart true props.anchor start]
  | .flowMappingStart =>
    let _ ← next
    await [.flowKey t.start true]
    return [.mappingStart true props.anchor start]
  | .blockSequenceStart =>
    if block then
      let _ ← next
      await [.sequenceEntry t.start]
      return [.sequenceStart false props.anchor start]
  | .blockMappingStart =>
    if block then
      let _ ← next
      await [.mappingKey t.start]
      return [.mappingStart false props.anchor start]
  | _ => pure ()
  match props.span with
  | some (_, stop) => return [.scalar "" .plain props.anchor start stop]
  | none =>
    fail (.during (if block then .blockNode else .flowNode) start (.wantedContent t.kind) t.start)

def sequenceEntry (start : Position) : Parse (List Event) := do
  let t := (← peek).token
  match t.kind with
  | .blockEntry =>
    let _ ← next
    if ← sees [.blockEntry, .blockEnd] then
      await [.sequenceEntry start]
      return emptyScalar t.stop
    else
      await [.node true false, .sequenceEntry start]
      return []
  | .blockEnd =>
    let _ ← next
    return [.sequenceEnd]
  | k => fail (.during .blockSequence start (.wantedBlockEnd k) t.start)

/-- An entry of a sequence without indentation of its own, or its end. -/
def indentlessEntry : Parse (List Event) := do
  let t := (← peek).token
  if t.kind == .blockEntry then
    let _ ← next
    if ← sees [.blockEntry, .key, .value, .blockEnd] then
      await [.indentlessEntry]
      return emptyScalar t.stop
    else
      await [.node true false, .indentlessEntry]
      return []
  else return [.sequenceEnd]

/-- A key of a block mapping, or its end. Before a value without key stands an empty key, but in
versions up to 1.1. -/
def mappingKey (start : Position) : Parse (List Event) := do
  let t ← peek
  match t.token.kind with
  | .key =>
    let _ ← next
    if ← sees [.key, .value, .blockEnd] then
      await [.mappingValue start]
      return emptyScalar t.token.stop
    else
      await [.node true true, .mappingValue start]
      return []
  | .blockEnd =>
    let _ ← next
    return [.mappingEnd]
  | k =>
    if k == .value && t.version.isNew then
      await [.mappingValue start]
      return emptyScalar t.token.start
    else fail (.during .blockMapping start (.wantedBlockEnd k) t.token.start)

/-- The value of a block mapping. An empty one stands behind the token that follows. -/
def mappingValue (start : Position) : Parse (List Event) := do
  let t := (← peek).token
  if t.kind == .value then
    let _ ← next
    if ← sees [.key, .value, .blockEnd] then
      await [.mappingKey start]
      return emptyScalar (← peek).token.stop
    else
      await [.node true true, .mappingKey start]
      return []
  else
    await [.mappingKey start]
    return emptyScalar t.start

/-- An entry of a flow sequence, or its end. A key makes the entry a mapping of one pair. -/
def flowEntry (start : Position) (first : Bool) : Parse (List Event) := do
  let t := (← peek).token
  if t.kind != .flowSequenceEnd then
    if !first then
      if t.kind == .flowEntry then let _ ← next
      else fail (.during .flowSequence start (.wantedSequenceNext t.kind) t.start)
    let u := (← peek).token
    if u.kind == .key then
      let _ ← next
      await [.pairKey u.stop, .flowEntry start false]
      return [.mappingStart true none u.start]
    if u.kind != .flowSequenceEnd then
      await [.node false false, .flowEntry start false]
      return []
  let _ ← next
  return [.sequenceEnd]

def pairKey (indicator : Position) : Parse (List Event) := do
  if ← sees [.value, .flowEntry, .flowSequenceEnd] then
    await [.pairValue]
    return emptyScalar indicator
  else
    await [.node false false, .pairValue]
    return []

def pairValue : Parse (List Event) := do
  let t := (← peek).token
  if t.kind == .value then
    let _ ← next
    if ← sees [.flowEntry, .flowSequenceEnd] then
      await [.pairEnd]
      return emptyScalar t.stop
    else
      await [.node false false, .pairEnd]
      return []
  else
    await [.pairEnd]
    return emptyScalar t.start

/-- The end of a single pair, which is found when the next token is. -/
def pairEnd : Parse (List Event) := do
  let _ ← peek
  return [.mappingEnd]

/-- A key of a flow mapping, or its end. A node that is not marked as a key has an empty value. -/
def flowKey (start : Position) (first : Bool) : Parse (List Event) := do
  let t := (← peek).token
  if t.kind != .flowMappingEnd then
    if !first then
      if t.kind == .flowEntry then let _ ← next
      else fail (.during .flowMapping start (.wantedMappingNext t.kind) t.start)
    let u ← peek
    if u.token.kind == .key then
      let _ ← next
      if ← sees [.value, .flowEntry, .flowMappingEnd] then
        await [.flowValue start]
        return emptyScalar u.token.stop
      else
        await [.node false false, .flowValue start]
        return []
    if u.token.kind == .value && u.version.isNew then
      await [.flowValue start]
      return emptyScalar u.token.stop
    if u.token.kind != .flowMappingEnd then
      await [.node false false, .flowEmptyValue start]
      return []
  let _ ← next
  return [.mappingEnd]

def flowValue (start : Position) : Parse (List Event) := do
  let t := (← peek).token
  if t.kind == .value then
    let _ ← next
    if ← sees [.flowEntry, .flowMappingEnd] then
      await [.flowKey start false]
      return emptyScalar t.stop
    else
      await [.node false false, .flowKey start false]
      return []
  else
    await [.flowKey start false]
    return emptyScalar t.start

/-- The value of a node in a flow mapping that is not marked as a key. -/
def flowEmptyValue (flowStart : Position) : Parse (List Event) := do
  let p ← start
  await [.flowKey flowStart false]
  return emptyScalar p

/-- Works on a goal; the events that are found. -/
def step : Goal → Parse (List Event)
  | .document bare => document bare
  | .content => content
  | .documentEnd => documentEnd
  | .node block indentless => node block indentless
  | .sequenceEntry start => sequenceEntry start
  | .indentlessEntry => indentlessEntry
  | .mappingKey start => mappingKey start
  | .mappingValue start => mappingValue start
  | .flowEntry start first => flowEntry start first
  | .pairKey indicator => pairKey indicator
  | .pairValue => pairValue
  | .pairEnd => pairEnd
  | .flowKey start first => flowKey start first
  | .flowValue start => flowValue start
  | .flowEmptyValue start => flowEmptyValue start

end Parse

/-- The events from here on, one goal after the other. -/
def Parser.run : Nat → Parser → List Event × Option Fault
  | 0, _ => ([], none)
  | fuel + 1, s =>
    match s.goals with
    | [] => ([], none)
    | g :: goals =>
      match (Parse.step g).run { s with goals } with
      | .error fault => ([], fault)
      | .ok (found, s) =>
        let (later, fault) := Parser.run fuel s
        (found ++ later, fault)

/-- The events of a text, and the fault that stops them. A token is worked on by few goals, so the
number of steps is bounded by a multiple of the number of tokens. -/
def Event.ofText (text : List Char) : EventStream :=
  let (tokens, barrier) := Token.ofText text
  let (events, fault) := Parser.run (8 * (tokens.length + 2))
    ⟨tokens, barrier, [.document true], defaultHandles⟩
  ⟨events, fault⟩

end FlowLint.Yaml
