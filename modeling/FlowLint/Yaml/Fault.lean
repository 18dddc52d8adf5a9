import FlowLint.Raised
import FlowLint.Text.Quoted
import FlowLint.Text.Integer
import FlowLint.Text.Utf8
import FlowLint.Yaml.Token

/-! What can be wrong with a text before it has a tree: the part that was being read, the problem
that was met, and the words in which both are reported. -/

namespace FlowLint.Yaml

/-- The part of a text that was being read. -/
inductive Task where
  | nextToken
  | simpleKey
  | directive
  | directiveHandle
  | directiveUri
  | alias
  | anchor
  | tag
  | tagHandle
  | tagUri
  | verbatimTag
  | blockScalar
  | deeperFollowUp
  | quotedScalar
  | doubleQuoted
  | blockNode
  | flowNode
  | node
  | blockSequence
  | blockMapping
  | flowSequence
  | flowMapping
  deriving DecidableEq, Repr

def Task.text : Task → String
  | .nextToken => "while scanning for the next token"
  | .simpleKey => "while scanning a simple key"
  | .directive => "while scanning a directive"
  | .directiveHandle => "while scanning an directive"
  | .directiveUri => "while parsing an directive"
  | .alias => "while scanning an alias"
  | .anchor => "while scanning an anchor"
  | .tag => "while scanning a tag"
  | .tagHandle => "while scanning an tag"
  | .tagUri => "while parsing an tag"
  | .verbatimTag => "while parsing a tag"
  | .blockScalar => "while scanning a block scalar"
  | .deeperFollowUp => "more indented follow up line than first in a block scalar"
  | .quotedScalar => "while scanning a quoted scalar"
  | .doubleQuoted => "while scanning a double-quoted scalar"
  | .blockNode => "while parsing a block node"
  | .flowNode => "while parsing a flow node"
  | .node => "while parsing a node"
  | .blockSequence => "while parsing a block collection"
  | .blockMapping => "while parsing a block mapping"
  | .flowSequence => "while parsing a flow sequence"
  | .flowMapping => "while parsing a flow mapping"

/-- What was met in place of what had to follow. -/
inductive Problem where
  | cannotStart (found : Char)
  | missingColon
  | entryNotAllowed
  | keyNotAllowed
  | valueNotAllowed
  | wantedAlphanumeric (found : Char)
  | wantedDigit (found : Char)
  | wantedDigitOrDot (found : Char)
  | wantedSpace (found : Char)
  | wantedLineEnd (found : Char)
  | wantedBang (found : Char)
  | wantedClosingBang (found : Char)
  | wantedClosingAngle (found : Char)
  | wantedUri (found : Char)
  | wantedUriEscape (found : Char)
  | uriEncoding (fault : Text.Utf8.Fault)
  | zeroIndentation
  | wantedIndicator (found : Char)
  | unknownEscape (found : Char)
  | wantedHexDigits (count : Nat) (found : Char)
  | documentSeparator
  | endOfText
  | wantedDocumentStart (found : Token.Kind)
  | contentAfterEnd (found : Token.Kind)
  | wantedContent (found : Token.Kind)
  | wantedBlockEnd (found : Token.Kind)
  | wantedSequenceNext (found : Token.Kind)
  | wantedMappingNext (found : Token.Kind)
  | duplicateVersion
  | incompatibleVersion
  | duplicateHandle (handle : String)
  | undefinedHandle (handle : String)
  deriving DecidableEq, Repr

def Problem.text : Problem → String
  | .cannotStart c => s!"found character {shown c} that cannot start any token"
  | .missingColon => "could not find expected ':'"
  | .entryNotAllowed => "sequence entries are not allowed here"
  | .keyNotAllowed => "mapping keys are not allowed here"
  | .valueNotAllowed => "mapping values are not allowed here"
  | .wantedAlphanumeric c => s!"expected alphabetic or numeric character, but found {shown c}"
  | .wantedDigit c => s!"expected a digit, but found {shown c}"
  | .wantedDigitOrDot c => s!"expected a digit or '.', but found {shown c}"
  | .wantedSpace c => s!"expected ' ', but found {shown c}"
  | .wantedLineEnd c => s!"expected a comment or a line break, but found {shown c}"
  | .wantedBang c => s!"expected '!', but found {shown c}"
  | .wantedClosingBang c => s!"expected '!' but found {shown c}"
  | .wantedClosingAngle c => s!"expected '>' but found {shown c}"
  | .wantedUri c => s!"expected URI, but found {shown c}"
  | .wantedUriEscape c =>
    s!"expected URI escape sequence of 2 hexdecimal numbers, but found {shown c}"
  | .uriEncoding fault => fault.message
  | .zeroIndentation => "expected indentation indicator in the range 1-9, but found 0"
  | .wantedIndicator c => s!"expected chomping or indentation indicators, but found {shown c}"
  | .unknownEscape c => s!"found unknown escape character {shown c}"
  | .wantedHexDigits n c =>
    s!"expected escape sequence of {n} hexdecimal numbers, but found {shown c}"
  | .documentSeparator => "found unexpected document separator"
  | .endOfText => "found unexpected end of stream"
  | .wantedDocumentStart k => s!"expected '<document start>', but found ({named k},)"
  | .contentAfterEnd k => s!"found non-comment content after document end marker, ({named k},)"
  | .wantedContent k => s!"expected the node content, but found {named k}"
  | .wantedBlockEnd k => s!"expected <block end>, but found {named k}"
  | .wantedSequenceNext k => s!"expected ',' or ']', but got {named k}"
  | .wantedMappingNext k => s!"expected ',' or '\x7d', but got {named k}"
  | .duplicateVersion => "found duplicate YAML directive"
  | .incompatibleVersion => "found incompatible YAML document (version 1.* is required)"
  | .duplicateHandle h => s!"duplicate tag handle {Text.Quoted.ofString h}"
  | .undefinedHandle h => s!"found undefined tag handle {Text.Quoted.ofString h}"
where
  shown (c : Char) : String := Text.Quoted.ofChar c
  named (k : Token.Kind) : String := Text.Quoted.ofString k.name

/-- Why a text has no events from some place on. The last two are out of range of what is read at
all: they are not told of as faults of the text. -/
inductive Fault where
  /-- The text breaks the grammar. -/
  | grammar (task : Option (Task × Option Position)) (problem : Option (Problem × Position))
  /-- A character stands where no YAML text may hold it. -/
  | character (found : Char) (offset : Nat)
  /-- An escape names a code point that does not exist. -/
  | codePoint (code : Nat)
  /-- A version number has too many digits. -/
  | longNumber (digits : Nat)
  deriving DecidableEq, Repr

namespace Fault

/-- A problem met at `place` while reading something that began at `start`. -/
def during (task : Task) (start : Position) (problem : Problem) (place : Position) : Fault :=
  .grammar (some (task, some start)) (some (problem, place))

/-- A problem met at `place` while reading nothing in particular. -/
def bare (problem : Problem) (place : Position) : Fault := .grammar none (some (problem, place))

/-- The error about a code point that does not exist. From `2 ^ 31` on it is not even a number that
could be a code point. -/
def codePointError (code : Nat) : Raised :=
  if code < 0x80000000 then ⟨"ValueError", "chr() arg not in range(0x110000)"⟩
  else ⟨"OverflowError", "Python int too large to convert to C int"⟩

/-- The error that a fault is if it is none of the text. -/
def raised? : Fault → Option Raised
  | .grammar _ _ | .character _ _ => none
  | .codePoint code => some (codePointError code)
  | .longNumber digits => some ⟨"ValueError", (Text.Integer.Fault.tooLong digits).message⟩

def isOfText (f : Fault) : Bool := f.raised?.isNone

def place? : Fault → Option Position
  | .grammar _ (some (_, p)) => some p
  | _ => none

/-- The lines of a report. The place where the reading began is left out if the problem stands in
the same line and column. -/
def reportLines (task : Option (Task × Option Position)) (problem : Option (Problem × Position)) :
    List String :=
  let begun := match task with
    | none => []
    | some (t, none) => [t.text]
    | some (t, some p) =>
      match problem with
      | some (_, q) =>
        if p.line == q.line && p.column == q.column then [t.text] else [t.text, p.text]
      | none => [t.text, p.text]
  let met := match problem with
    | none => []
    | some (m, q) => [m.text, q.text]
  begun ++ met

/-- Lines with a line feed between neighbours. -/
def joinLines : List String → String
  | [] => ""
  | [l] => l
  | l :: ls => l ++ "\n" ++ joinLines ls

def message : Fault → String
  | .grammar task problem => joinLines (reportLines task problem)
  | .character c offset =>
    "unacceptable character #x" ++ .ofList (Text.Quoted.hexDigits 4 c.toNat) ++
      s!": special characters are not allowed\n  in \"<file>\", position {offset}"
  | .codePoint code => (codePointError code).message
  | .longNumber digits => (Text.Integer.Fault.tooLong digits).message

end Fault

end FlowLint.Yaml
