import FlowLint.Yaml.Token.Directive

/-! From a text to its tokens. A key of a mapping is known to be one only when its colon has been
read, so tokens wait in a queue while one of them may still turn out to begin a key. `Token.ofText`
gives the tokens that leave the queue, each with the YAML version in force at that moment, and the
fault that stops the reading, if there is one. -/

namespace FlowLint.Yaml

/-- A place where a key may begin, with the number of the token that would be the key's first. -/
structure Candidate where
  number : Nat
  /-- Only a key can stand here. -/
  required : Bool
  place : Position
  deriving DecidableEq, Repr

/-- The kinds of flow collections. -/
inductive Bracket where
  | square
  | curly
  deriving DecidableEq, Repr

structure Lexer where
  cursor : Cursor
  /-- The tokens that have been read and not yet handed on. -/
  queue : List Token
  /-- How many tokens have been handed on. -/
  taken : Nat
  /-- The columns of the open block collections, the innermost first. -/
  columns : List Nat
  /-- The open flow collections, the innermost first. -/
  flow : List Bracket
  /-- A key may begin at the next token. -/
  keysAllowed : Bool
  /-- At most one candidate for each depth of flow collections. -/
  candidates : List (Nat × Candidate)
  version : Version
  /-- The end of the text has been read. -/
  finished : Bool

abbrev Lex (α : Type) : Type := StateT Lexer (Except Fault) α

def Lexer.ofText (text : List Char) : Lexer :=
  ⟨.ofText text, [], 0, [], [], true, [], .current, false⟩

/-- How far a candidate may be from its colon. -/
def maxKeyLength : Nat := 1024

/-- The candidate stands in another line than `p`, or too far from it. -/
def Candidate.isStale (k : Candidate) (p : Position) : Bool :=
  k.place.line != p.line || maxKeyLength < p.index - k.place.index

/-- A character that begins no plain scalar by itself. -/
def isIndicator (c : Char) : Bool := "-?:,[]\x7b\x7d#&*!|>'\"%@\x60".toList.contains c

namespace Lex

/-- Runs a reader at the cursor. -/
def scan {α : Type} (r : Scan α) : Lex α := do
  let s ← get
  let (a, cursor) ← r.run s.cursor
  set { s with cursor }
  return a

def inFlow : Lex Bool := return !(← get).flow.isEmpty

/-- Adds a token to the queue. -/
def push (kind : Token.Kind) (start stop : Position) : Lex Unit :=
  modify fun s => { s with queue := s.queue ++ [⟨kind, start, stop⟩] }

/-- Adds a token of `width` characters at the cursor. -/
def pushIndicator (kind : Token.Kind) (width : Nat) : Lex Unit := do
  let start ← scan Scan.position
  scan (Scan.skip width)
  push kind start (← scan Scan.position)

/-- Adds a token that has no characters of its own. -/
def pushMark (kind : Token.Kind) : Lex Unit := do
  let p ← scan Scan.position
  push kind p p

def allowKeys (allowed : Bool) : Lex Unit := modify ({ · with keysAllowed := allowed })

/-- Drops the candidates that can be no keys any more; a required one is missed. -/
def dropStale : Lex Unit := do
  let s ← get
  let p := s.cursor.position
  match s.candidates.find? fun (_, k) => k.required && k.isStale p with
  | some (_, k) => throw (.during .simpleKey k.place .missingColon p)
  | none => set { s with candidates := s.candidates.filter fun (_, k) => !k.isStale p }

/-- Drops the candidate at the current depth; a required one is missed. -/
def dropCandidate : Lex Unit := do
  let s ← get
  let depth := s.flow.length
  match s.candidates.lookup depth with
  | none => return
  | some k =>
    if k.required then throw (.during .simpleKey k.place .missingColon s.cursor.position)
    set { s with candidates := s.candidates.filter (·.1 != depth) }

/-- The next token may begin a key. -/
def saveCandidate : Lex Unit := do
  let s ← get
  if s.keysAllowed then
    dropCandidate
    let s ← get
    let p := s.cursor.position
    let required := s.flow.isEmpty && s.columns.head? == some p.column
    let k : Candidate := ⟨s.taken + s.queue.length, required, p⟩
    set { s with candidates := s.candidates ++ [(s.flow.length, k)] }

/-- Closes the block collections that stand right of `column`, or all of them. -/
def closeBlocks (column : Option Nat) : Lex Unit := do
  let s ← get
  if s.flow.isEmpty then
    let p := s.cursor.position
    let closes (c : Nat) : Bool := column.all (· < c)
    let closed := s.columns.takeWhile closes
    set { s with
      columns := s.columns.dropWhile closes
      queue := s.queue ++ closed.map fun _ => (⟨.blockEnd, p, p⟩ : Token) }

/-- Opens a block collection in `column` unless one is open there; tells whether it did. -/
def openBlock (column : Nat) : Lex Bool := do
  let s ← get
  if s.columns.head?.all (· < column) then
    set { s with columns := column :: s.columns }
    return true
  else return false

/-- Puts a token of no width before the token with the given number. -/
def insertAt (number : Nat) (kind : Token.Kind) (p : Position) : Lex Unit :=
  modify fun s =>
    let i := number - s.taken
    { s with queue := s.queue.take i ++ ⟨kind, p, p⟩ :: s.queue.drop i }

/-- Moves to the next token: past spaces, comments and line ends, and inside flow collections past
tabs. Behind a line end outside of them a key may begin. -/
def skipToToken : Lex Unit := do
  if (← scan Scan.peek) == '\uFEFF' && (← get).cursor.position.index == 0 then scan (Scan.skip 1)
  lines (← scan Scan.bound)
where
  lines : Nat → Lex Unit
    | 0 => return
    | fuel + 1 => do
      let tabs ← inFlow
      scan (Scan.skipWhile fun c => c == ' ' || (tabs && c == '\t'))
      if (← scan Scan.peek) == '#' then scan (Scan.skipWhile (!isEnd ·))
      let b ← scan Scan.lineBreak
      if !b.isEmpty then
        if !(← inFlow) then allowKeys true
        lines fuel

def readEnd : Lex Unit := do
  closeBlocks none
  dropCandidate
  allowKeys false
  pushMark .streamEnd
  modify ({ · with candidates := [], finished := true })

def readDirective : Lex Unit := do
  closeBlocks none
  dropCandidate
  allowKeys false
  let start ← scan Scan.position
  let (d, stop) ← scan (Scan.directive (← get).version)
  if let .version v := d then modify ({ · with version := v })
  push (.directive d) start stop

/-- Reads the marker of a document start or end. -/
def readMarker (kind : Token.Kind) : Lex Unit := do
  closeBlocks none
  dropCandidate
  allowKeys false
  pushIndicator kind 3

def readOpening (bracket : Bracket) (kind : Token.Kind) : Lex Unit := do
  saveCandidate
  modify fun s => { s with flow := bracket :: s.flow }
  allowKeys true
  pushIndicator kind 1

/-- Reads a closing bracket, which need not match. -/
def readClosing (kind : Token.Kind) : Lex Unit := do
  dropCandidate
  modify fun s => { s with flow := s.flow.tail }
  allowKeys false
  pushIndicator kind 1

/-- Reads a comma. -/
def readFlowEntry : Lex Unit := do
  allowKeys true
  dropCandidate
  pushIndicator .flowEntry 1

/-- Outside flow collections, an indicator that begins an entry, a key or a value may open a block
collection in its column. -/
def openBlockHere (kind : Token.Kind) (refusal : Problem) : Lex Unit := do
  if !(← inFlow) then
    let p ← scan Scan.position
    if !(← get).keysAllowed then throw (.bare refusal p)
    if ← openBlock p.column then push kind p p

def readBlockEntry : Lex Unit := do
  openBlockHere .blockSequenceStart .entryNotAllowed
  allowKeys true
  dropCandidate
  pushIndicator .blockEntry 1

/-- Reads the question mark of a key. -/
def readKey : Lex Unit := do
  openBlockHere .blockMappingStart .keyNotAllowed
  allowKeys (!(← inFlow))
  dropCandidate
  pushIndicator .key 1

/-- Reads the colon of a value. A candidate at this depth is a key now. -/
def readValue : Lex Unit := do
  let s ← get
  match s.candidates.lookup s.flow.length with
  | some k =>
    set { s with candidates := s.candidates.filter (·.1 != s.flow.length) }
    insertAt k.number .key k.place
    if !(← inFlow) then
      if ← openBlock k.place.column then insertAt k.number .blockMappingStart k.place
    allowKeys false
  | none =>
    openBlockHere .blockMappingStart .valueNotAllowed
    allowKeys (!(← inFlow))
    dropCandidate
  pushIndicator .value 1

/-- Reads an alias or an anchor. -/
def readName (task : Task) (kind : String → Token.Kind) : Lex Unit := do
  saveCandidate
  allowKeys false
  let start ← scan Scan.position
  let name ← scan (Scan.name task)
  push (kind (.ofList name)) start (← scan Scan.position)

def readTag : Lex Unit := do
  saveCandidate
  allowKeys false
  let start ← scan Scan.position
  let handle ← scan (Scan.tag (← get).version)
  push (.tag (handle.map .ofList)) start (← scan Scan.position)

def pushScalar (style : ScalarStyle) (start : Position) (scanned : Scanned) : Lex Unit :=
  push (.scalar (.ofList scanned.text) style) start scanned.stop

/-- Reads a block scalar. If blank lines behind it were dropped, the next token is sought at once.
-/
def readBlockScalar (style : ScalarStyle) : Lex Unit := do
  allowKeys true
  dropCandidate
  let start ← scan Scan.position
  let minIndent := ((← get).columns.head?.map (· + 1)).getD 0
  let (scanned, dropped) ← scan (Scan.blockScalar (style == .folded) minIndent)
  if dropped then skipToToken
  pushScalar style start scanned

def readQuoted (quote : Char) (style : ScalarStyle) : Lex Unit := do
  saveCandidate
  allowKeys false
  let start ← scan Scan.position
  pushScalar style start (← scan (Scan.quotedScalar quote))

def readPlain : Lex Unit := do
  saveCandidate
  allowKeys false
  let s ← get
  let start ← scan Scan.position
  let indent := (s.columns.head?.map (· + 1)).getD 0
  let scanned ← scan (Scan.plainScalar (← inFlow) s.version.isOld indent false)
  allowKeys scanned.keyMayFollow
  pushScalar .plain start scanned

/-- A gap stands behind the character at the cursor. -/
def gapFollows : Lex Bool := return isGap (← scan (Scan.peekAt 1))

/-- The colon at the cursor begins a value. In a flow mapping it does so before any character,
unless another colon stands before it. -/
def seesValue : Lex Bool := do
  let s ← get
  match s.flow with
  | [] => gapFollows
  | bracket :: _ =>
    if s.version.isOld then return true
    else if bracket == .square then gapFollows
    else if s.queue.getLast?.any (·.kind == .value) then gapFollows
    else return true

def seesPlain (c : Char) : Lex Bool := do
  if !(isGap c || isIndicator c) then return true
  let next ← scan (Scan.peekAt 1)
  let flow ← inFlow
  if c == '-' then return !isGap next
  else if c == ':' && flow then return !(← get).version.isOld && next != ' ' && next != '\t'
  else return (c == '?' || c == ':') && !flow && !isGap next

/-- Reads the next token, with those that it implies. -/
def readToken : Lex Unit := do
  skipToToken
  dropStale
  let column ← scan Scan.column
  closeBlocks (some column)
  let c ← scan Scan.peek
  let flow ← inFlow
  if c == endMark then readEnd
  else if c == '%' && column == 0 then readDirective
  else if ← (pure (c == '-' && column == 0) <&&> scan (Scan.seesMarker Scan.startMarker)) then
    readMarker .documentStart
  else if ← (pure (c == '.' && column == 0) <&&> scan (Scan.seesMarker Scan.endMarker)) then
    readMarker .documentEnd
  else if c == '[' then readOpening .square .flowSequenceStart
  else if c == '\x7b' then readOpening .curly .flowMappingStart
  else if c == ']' then readClosing .flowSequenceEnd
  else if c == '\x7d' then readClosing .flowMappingEnd
  else if c == ',' then readFlowEntry
  else if ← (pure (c == '-') <&&> gapFollows) then readBlockEntry
  else if ← (pure (c == '?') <&&> (pure flow <||> gapFollows)) then readKey
  else if ← (pure (c == ':') <&&> seesValue) then readValue
  else if c == '*' then readName .alias .alias
  else if c == '&' then readName .anchor .anchor
  else if c == '!' then readTag
  else if c == '|' && !flow then readBlockScalar .literal
  else if c == '>' && !flow then readBlockScalar .folded
  else if c == '\'' then readQuoted '\'' .singleQuoted
  else if c == '"' then readQuoted '"' .doubleQuoted
  else if ← seesPlain c then readPlain
  else throw (.grammar (some (.nextToken, none)) (some (.cannotStart c, ← scan Scan.position)))

end Lex

/-- Hands on the tokens at the head of the queue that no candidate begins with. -/
def Lexer.release (s : Lexer) : List Token × Lexer :=
  let least := s.candidates.foldl (fun m (_, k) => some (min k.number (m.getD k.number))) none
  let ready := match least with
    | some number => number - s.taken
    | none => s.queue.length
  (s.queue.take ready,
    { s with queue := s.queue.drop ready, taken := s.taken + (s.queue.take ready).length })

/-- A token with the version in force when it is handed on. -/
structure VersionedToken where
  token : Token
  version : Version
  deriving DecidableEq, Repr

/-- The tokens of the text from here on, read one after the other. -/
def Lexer.run : Nat → Lexer → List VersionedToken × Option Fault
  | 0, _ => ([], none)
  | fuel + 1, s =>
    match Lex.readToken.run s with
    | .error fault => ([], some fault)
    | .ok ((), s) =>
      if s.finished then (s.queue.map (⟨·, s.version⟩), none)
      else match (if s.queue.isEmpty then .ok ((), s) else Lex.dropStale.run s) with
        | .error fault => ([], some fault)
        | .ok ((), s) =>
          let (ready, s) := s.release
          let (later, fault) := Lexer.run fuel s
          (ready.map (⟨·, s.version⟩) ++ later, fault)

/-- The tokens of a text, and the fault that stops the reading. Each token but the last has a
character of its own or a candidate's place. -/
def Token.ofText (text : List Char) : List VersionedToken × Option Fault :=
  Lexer.run (text.length + 2) (.ofText text)

end FlowLint.Yaml
