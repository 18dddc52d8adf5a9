import FlowLint.Raised
import FlowLint.Text.Integer

/-! What can be wrong with the written form of a pattern, and how it is reported. -/

namespace FlowLint.Pattern

/-- What is wrong with the text of a pattern. -/
inductive Mistake where
  | danglingEscape
  | badEscape (escape : String)
  | shortEscape (escape : String)
  | largeOctal (escape : String)
  /-- The number of the escape is too large for any code. -/
  | largeCode
  | missingBrace
  | unknownCharacter (name : String)
  | noSuchGroup (number : Nat)
  | openGroup
  /-- A pattern that looks behind refers to a group of its own. -/
  | groupInside
  | unterminatedSet
  | badRange (low high : String)
  | nothingToRepeat
  | repeatedRepeat
  | reversedBounds
  | largeBound
  | longNumber (fault : Text.Integer.Fault)
  | unterminatedGroup
  | unterminatedComment
  | unbalanced
  | unexpectedEnd
  | unknownExtension (text : String)
  | missingName (what : String)
  | unterminatedName (closing : Char)
  | badName (name : String)
  | unknownName (name : String)
  | repeatedName (name : String) (number first : Nat)
  | badNumber
  | thirdBranch
  | lateFlags
  | unknownFlag
  | missingFlag
  /-- What may follow a flag is missing. -/
  | unclosedFlags (wanted : String)
  | localeFlag
  | incompatibleFlags
  /-- A flag of the whole pattern is set for a group. -/
  | globalFlag (turned : String)
  | fixedFlag
  | flagOnAndOff
  | bothRules
  | variableWidth
  | largeWidth
  /-- The flag `t` rules out every repetition. -/
  | templateRepeat (kind : String)
  deriving DecidableEq, Repr

def Mistake.text : Mistake → String
  | .danglingEscape => "bad escape (end of pattern)"
  | .badEscape e => "bad escape " ++ e
  | .shortEscape e => "incomplete escape " ++ e
  | .largeOctal e => "octal escape value " ++ e ++ " outside of range 0-0o377"
  | .largeCode => "Python int too large to convert to C int"
  | .missingBrace => "missing \x7b"
  | .unknownCharacter name => "undefined character name " ++ Text.Quoted.ofString name
  | .noSuchGroup n => s!"invalid group reference {n}"
  | .openGroup => "cannot refer to an open group"
  | .groupInside => "cannot refer to group defined in the same lookbehind subpattern"
  | .unterminatedSet => "unterminated character set"
  | .badRange low high => "bad character range " ++ low ++ "-" ++ high
  | .nothingToRepeat => "nothing to repeat"
  | .repeatedRepeat => "multiple repeat"
  | .reversedBounds => "min repeat greater than max repeat"
  | .largeBound => "the repetition number is too large"
  | .longNumber fault => fault.message
  | .unterminatedGroup => "missing ), unterminated subpattern"
  | .unterminatedComment => "missing ), unterminated comment"
  | .unbalanced => "unbalanced parenthesis"
  | .unexpectedEnd => "unexpected end of pattern"
  | .unknownExtension t => "unknown extension " ++ t
  | .missingName what => "missing " ++ what
  | .unterminatedName closing => "missing " ++ .ofList [closing] ++ ", unterminated name"
  | .badName name => "bad character in group name " ++ Text.Quoted.ofString name
  | .unknownName name => "unknown group name " ++ Text.Quoted.ofString name
  | .repeatedName name number first =>
    "redefinition of group name " ++ Text.Quoted.ofString name ++
      s!" as group {number}; was group {first}"
  | .badNumber => "bad group number"
  | .thirdBranch => "conditional backref with more than two branches"
  | .lateFlags => "global flags not at the start of the expression"
  | .unknownFlag => "unknown flag"
  | .missingFlag => "missing flag"
  | .unclosedFlags wanted => "missing " ++ wanted
  | .localeFlag => "bad inline flags: cannot use 'L' flag with a str pattern"
  | .incompatibleFlags => "bad inline flags: flags 'a', 'u' and 'L' are incompatible"
  | .globalFlag turned => "bad inline flags: cannot turn " ++ turned ++ " global flag"
  | .fixedFlag => "bad inline flags: cannot turn off flags 'a', 'u' and 'L'"
  | .flagOnAndOff => "bad inline flags: flag turned on and off"
  | .bothRules => "ASCII and UNICODE flags are incompatible"
  | .variableWidth => "look-behind requires fixed-width pattern"
  | .largeWidth => "looks too much behind"
  | .templateRepeat kind => "internal: unsupported template operator " ++ kind

/-- A mistake and the offset where it is reported, if it is reported anywhere; a pattern of several
lines has line and column reported too. -/
structure ReadError where
  mistake : Mistake
  offset : Option Nat
  /-- Line and column, counted from 1. -/
  place : Option (Nat × Nat)
  deriving DecidableEq, Repr

def ReadError.ofMistake (text : List Char) (m : Mistake) (offset : Option Nat) : ReadError where
  mistake := m
  offset := offset
  place := if text.contains '\n' then offset.map lineAndColumn else none
where
  lineAndColumn (offset : Nat) : Nat × Nat :=
    let before := text.take offset
    (before.count '\n' + 1, (before.reverse.takeWhile (· != '\n')).length + 1)

def ReadError.message (e : ReadError) : String :=
  e.mistake.text ++
    match e.offset, e.place with
    | none, _ => ""
    | some offset, none => s!" at position {offset}"
    | some offset, some (line, column) =>
      s!" at position {offset} (line {line}, column {column})"

/-- Why a text is not read as a pattern. -/
inductive Refusal where
  /-- The text is none. -/
  | mistake (message : String)
  /-- A part of the text has no value. -/
  | value (message : String)
  /-- Another error ends the reading. -/
  | raised (error : Raised)
  deriving DecidableEq, Repr

def ReadError.refusal (e : ReadError) : Refusal :=
  match e.mistake with
  | .largeBound | .largeCode => .raised ⟨"OverflowError", e.mistake.text⟩
  | .longNumber _ | .bothRules => .value e.mistake.text
  | _ => .mistake e.message

end FlowLint.Pattern
