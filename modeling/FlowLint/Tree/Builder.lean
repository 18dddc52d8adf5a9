import FlowLint.Text.Pieces
import FlowLint.Tree.Document
import FlowLint.Yaml.Event.Grammar

/-! From events to a tree. The builder takes the events one by one; it keeps the open collections,
the innermost first, and the nodes that aliases may refer to. `load` is the way from a text to its
document: a text that cannot be loaded has the error that is met first. -/

namespace FlowLint.Tree

open Yaml (Event Position)

/-- Why the events of a text give no tree. Places count from 1. -/
inductive BuildError where
  | secondDocument (line column : Nat)
  | undefinedAlias (name : String) (line column : Nat)
  | tooDeep (line column : Nat)
  | keyNotScalar (line column : Nat)
  | duplicateKey (key : String) (first line column : Nat)
  deriving DecidableEq, Repr

/-- How many collections may stand inside one another. -/
def maxNesting : Nat := 100

namespace BuildError

def place : BuildError → Nat × Nat
  | .secondDocument l c => (l, c)
  | .undefinedAlias _ l c => (l, c)
  | .tooDeep l c => (l, c)
  | .keyNotScalar l c => (l, c)
  | .duplicateKey _ _ l c => (l, c)

def message : BuildError → String
  | .secondDocument _ _ => "expected a single workflow document but found another"
  | .undefinedAlias name _ _ => "found undefined alias '*" ++ name ++ "'"
  | .tooDeep _ _ => s!"document nests deeper than {maxNesting} levels"
  | .keyNotScalar _ _ => "mapping keys must be scalars"
  | .duplicateKey key first _ _ =>
    "duplicate key '" ++ key ++ s!"' (first defined on line {first})"

end BuildError

/-- A collection that is being read, with what has been read of it, the last first. -/
inductive Frame where
  | sequence (origin : Origin) (items : List Node)
  /-- A key that waits for its value comes with the entries. -/
  | mapping (origin : Origin) (entries : List (Scalar × Node)) (key : Option Scalar)

structure Builder where
  /-- The collections that are being read, the innermost first. -/
  frames : List Frame := []
  /-- The nodes with an anchor, the last read first. -/
  anchors : List (String × Node) := []
  root : Option Node := none

/-- How a node that begins at `p` is written. -/
def originAt (style : Style) (anchor : Option String) (p : Position) : Origin :=
  ⟨style, anchor, p.line + 1, p.column + 1⟩

/-- The last line that a scalar covers, counted from 1, if it stops at `p`: the line of `p`, or the
one before if nothing but blanks stands before `p`. -/
def endLine (lines : List String) (p : Position) : Nat :=
  match lines[p.line]? with
  | none => p.line
  | some l => if (l.toList.take p.column).all Text.isBlank then p.line else p.line + 1

def Style.ofScalar : Yaml.ScalarStyle → Style
  | .plain => .plain
  | .singleQuoted => .quoted
  | .doubleQuoted => .quoted
  | .literal => .blockLiteral
  | .folded => .blockFolded

/-- The style of a collection in the tree. -/
def Style.ofFlow (flow : Bool) : Style := if flow then .flow else .plain

namespace Builder

/-- Puts a finished node into the innermost collection; the node of a whole document is the root. -/
def attach (b : Builder) (n : Node) : Except BuildError Builder :=
  match b.frames with
  | [] => .ok { b with root := some n }
  | .sequence o items :: frames => .ok { b with frames := .sequence o (n :: items) :: frames }
  | .mapping o entries (some key) :: frames =>
    .ok { b with frames := .mapping o ((key, n) :: entries) none :: frames }
  | .mapping o entries none :: frames =>
    match n with
    | .scalar key =>
      match entries.find? (·.1.value == key.value) with
      | some (first, _) =>
        .error (.duplicateKey key.value first.origin.line key.origin.line key.origin.column)
      | none => .ok { b with frames := .mapping o entries (some key) :: frames }
    | _ => .error (.keyNotScalar n.origin.line n.origin.column)

/-- Finishes a node of its own: aliases may refer to it from now on. -/
def finish (b : Builder) (n : Node) : Except BuildError Builder :=
  let anchors := match n.origin.anchor with
    | some name => (name, n) :: b.anchors
    | none => b.anchors
  { b with anchors }.attach n

def openFrame (b : Builder) (start : Position) (frame : Frame) : Except BuildError Builder :=
  if maxNesting ≤ b.frames.length then .error (.tooDeep (start.line + 1) (start.column + 1))
  else .ok { b with frames := frame :: b.frames }

def step (lines : List String) (b : Builder) : Event → Except BuildError Builder
  | .documentStart p =>
    if b.root.isSome then .error (.secondDocument (p.line + 1) (p.column + 1)) else .ok b
  | .documentEnd => .ok b
  | .alias name p =>
    match b.anchors.lookup name with
    | none => .error (.undefinedAlias name (p.line + 1) (p.column + 1))
    | some n => b.attach (n.withOrigin (originAt .alias (some name) p))
  | .scalar value style anchor start stop =>
    b.finish (.scalar ⟨value, originAt (.ofScalar style) anchor start, endLine lines stop⟩)
  | .sequenceStart flow anchor start =>
    b.openFrame start (.sequence (originAt (.ofFlow flow) anchor start) [])
  | .mappingStart flow anchor start =>
    b.openFrame start (.mapping (originAt (.ofFlow flow) anchor start) [] none)
  | .sequenceEnd =>
    match b.frames with
    | .sequence o items :: frames => { b with frames }.finish (.sequence o items.reverse)
    | _ => .ok b
  | .mappingEnd =>
    match b.frames with
    | .mapping o entries _ :: frames => { b with frames }.finish (.mapping o entries.reverse)
    | _ => .ok b

def run (lines : List String) (b : Builder) (events : List Event) : Except BuildError Builder :=
  events.foldlM (step lines) b

end Builder

/-- Why a text cannot be loaded. -/
inductive LoadError where
  | fault (f : Yaml.Fault)
  | build (e : BuildError)
  deriving DecidableEq, Repr

namespace LoadError

def message : LoadError → String
  | .fault f => f.message
  | .build e => e.message

/-- The error that this is if it does not say what is wrong with the text. -/
def raised? : LoadError → Option Raised
  | .fault f => f.raised?
  | .build _ => none

def isOfText (e : LoadError) : Bool := e.raised?.isNone

/-- The line and the column of an error, counted from 1. -/
def place? : LoadError → Option (Nat × Nat)
  | .fault f => f.place?.map fun p => (p.line + 1, p.column + 1)
  | .build e => some e.place

/-- The message with the place. -/
def text (e : LoadError) : String :=
  match e.place? with
  | some (line, column) => e.message ++ s!" (line {line}, column {column})"
  | none => e.message

end LoadError

/-- The tree of a stream of events. An error of the tree wins over the fault that stops the events,
since the events before the fault come first. -/
def Node.ofEvents (lines : List String) (stream : Yaml.EventStream) : Except LoadError Node :=
  match Builder.run lines {} stream.events, stream.fault with
  | .error e, _ => .error (.build e)
  | .ok _, some f => .error (.fault f)
  | .ok b, none => .ok (b.root.getD .empty)

/-- The document of a text. A text of blanks alone is an empty mapping. -/
def load (text : String) : Except LoadError Document :=
  if Text.allBlank text then .ok (.ofRoot .empty text)
  else (Node.ofEvents (Text.lines text) (Event.ofText text.toList)).map
    fun root => .ofRoot root text

end FlowLint.Tree
