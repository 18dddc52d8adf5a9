import FlowLint.Text.Case
import FlowLint.Text.Digit
import FlowLint.Text.Blank

/-! Search patterns: sets of characters, places in a text, and what is made from them by sequence,
choice, repetition, looking around and referring back. -/

namespace FlowLint

/-- How characters are classed and compared. -/
structure CharRule where
  /-- A character stands for all that differ from it in case alone. -/
  caseless : Bool := false
  /-- Only ASCII characters have a class or case. -/
  ascii : Bool := false
  deriving DecidableEq, Repr

namespace CharRule

def lower (r : CharRule) (c : Char) : Char := if r.ascii then c.toLower else Text.lowerChar c

/-- The characters that differ from `c` in case alone, `c` among them. -/
def variants (r : CharRule) (c : Char) : List Char :=
  if r.ascii then [c.toLower, c.toUpper]
  else (Text.caseSiblings (Text.lowerChar c)).flatMap Text.raisings

/-- The characters count as the same. -/
def same (r : CharRule) (c d : Char) : Bool :=
  if r.caseless then r.lower c == r.lower d else c == d

end CharRule

/-- A class of characters. -/
inductive CharClass where
  | digit
  | blank
  | word
  deriving DecidableEq, Repr

def isAsciiWordChar (c : Char) : Bool := c.isAlphanum || c == '_'

def CharClass.has (r : CharRule) : CharClass → Char → Bool
  | .digit, c => if r.ascii then c.isDigit else Text.isDecimal c
  | .blank, c => if r.ascii then (9 ≤ c.toNat && c.toNat ≤ 13) || c == ' ' else Text.isBlank c
  | .word, c => if r.ascii then isAsciiWordChar c else Text.isWordChar c

/-- A part of a set of characters. -/
inductive CharItem where
  | one (c : Char)
  /-- The characters with codes between two bounds, which need not be codes of characters. -/
  | span (low high : Nat)
  | ofClass (k : CharClass)
  | notOfClass (k : CharClass)
  deriving DecidableEq, Repr

/-- The character, as it is, belongs to the part. -/
def CharItem.has (r : CharRule) : CharItem → Char → Bool
  | .one d, c => c == d
  | .span low high, c => low ≤ c.toNat && c.toNat ≤ high
  | .ofClass k, c => k.has r c
  | .notOfClass k, c => !k.has r c

/-- The part names characters and not a class of them. -/
def CharItem.isLiteral : CharItem → Bool
  | .one _ | .span _ _ => true
  | _ => false

/-- A set of characters: those of the items, or all others. -/
structure CharSet where
  items : List CharItem
  negated : Bool := false
  rule : CharRule := {}
  deriving DecidableEq, Repr

def CharSet.has (s : CharSet) (c : Char) : Bool :=
  let found :=
    if s.rule.caseless then
      s.items.any fun i =>
        if i.isLiteral then (s.rule.variants c).any (i.has s.rule)
        else i.has s.rule (s.rule.lower c)
    else s.items.any (·.has s.rule c)
  found != s.negated

/-- A place in a text that a pattern may ask for. -/
inductive Place where
  | textStart
  /-- The end of the text, or before a line feed that ends it. -/
  | ending
  | textEnd
  | lineStart
  | lineEnd
  /-- Between a character of a word and another character, or an end of the text. -/
  | wordEdge
  | noWordEdge
  | asciiWordEdge
  | noAsciiWordEdge
  deriving DecidableEq, Repr

/-- A search pattern. -/
inductive Pattern where
  | empty
  | oneOf (s : CharSet)
  | place (p : Place)
  | seq (first second : Pattern)
  | alt (first second : Pattern)
  /-- At least `least` times; at most so many times more, or without bound. -/
  | rep (body : Pattern) (least : Nat) (more : Option Nat) (greedy : Bool)
  /-- What follows does, or does not, match; nothing is passed over. -/
  | ahead (body : Pattern) (wanted : Bool)
  /-- What stands from so many characters before does, or does not, match. -/
  | behind (width : Nat) (body : Pattern) (wanted : Bool)
  /-- Only the first match counts. -/
  | atomic (body : Pattern)
  /-- What matches is kept under a number. -/
  | group (number : Nat) (body : Pattern)
  /-- What was kept under a number, once more. -/
  | again (number : Nat) (rule : CharRule)
  /-- One pattern if something was kept under a number, the other if nothing was. -/
  | choose (number : Nat) (kept missing : Pattern)
  deriving DecidableEq, Repr

namespace Pattern

def char (c : Char) : Pattern := .oneOf { items := [.one c] }

/-- Patterns one after the other. -/
def sequence : List Pattern → Pattern
  | [] => .empty
  | [p] => p
  | p :: ps => .seq p (sequence ps)

/-- One of the patterns, the earlier before the later. -/
def choice : List Pattern → Pattern
  | [] => .empty
  | [p] => p
  | p :: ps => .alt p (choice ps)

def text (s : String) : Pattern := sequence (s.toList.map char)

def texts (ss : List String) : Pattern := choice (ss.map text)

def ofClass (k : CharClass) : Pattern := .oneOf { items := [.ofClass k] }

def notOfClass (k : CharClass) : Pattern := .oneOf { items := [.notOfClass k] }

/-- Any number of times, as often as possible. -/
def many (p : Pattern) : Pattern := .rep p 0 none true

def atLeastOnce (p : Pattern) : Pattern := .rep p 1 none true

/-- Any number of times, as seldom as possible. -/
def few (p : Pattern) : Pattern := .rep p 0 none false

/-- Once or not at all. -/
def optional (p : Pattern) : Pattern := .rep p 0 (some 1) true

def wordEdge : Pattern := .place .wordEdge

def blank : Pattern := ofClass .blank

end Pattern

end FlowLint
