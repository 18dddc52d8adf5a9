import FlowLint.Pattern.Matcher
import FlowLint.Pattern.Reader

/-! The settings of a review. Limits are at least 1. A search pattern is a text with what is found
by it; which texts are search patterns and what they find is up to a `PatternReader`. -/

namespace FlowLint

/-- Which words of a title have a capital. -/
inductive Casing where
  | allWords
  /-- Small words inside a title have none. -/
  | standard
  deriving DecidableEq, Repr, Inhabited

def Casing.name : Casing → String
  | .allWords => "all_words_capitalized"
  | .standard => "standard_title_case"

def Casing.all : List Casing := [.allWords, .standard]

/-- What the name of a concurrency group falls back to where there is no head ref. -/
inductive GroupFallback where
  | refName
  | ref
  deriving DecidableEq, Repr, Inhabited

def GroupFallback.name : GroupFallback → String
  | .refName => "head_ref_or_ref_name"
  | .ref => "head_ref_or_ref"

def GroupFallback.all : List GroupFallback := [.refName, .ref]

/-- A limit. -/
structure Limit where
  value : Nat
  pos : 1 ≤ value := by decide
  deriving DecidableEq, Repr

/-- A search pattern. -/
structure SearchPattern where
  text : String
  /-- The pattern matches somewhere in a text. -/
  occurs : String → Bool

/-- How the texts of search patterns are read: where a text is one, the reader tells in which texts
it matches. -/
abbrev PatternReader : Type := String → Except Pattern.Refusal (String → Bool)

/-- The reader of the patterns in which characters have the given names. -/
def PatternReader.naming (charNamed : String → Option Char) : PatternReader := fun text =>
  match Pattern.read charNamed text with
  | .ok p => .ok p.occurs
  | .error e => .error e.refusal

/-- The reader of the patterns that name no characters. -/
def PatternReader.standard : PatternReader := .naming fun _ => none

def SearchPattern.read (reader : PatternReader) (text : String) :
    Except Pattern.Refusal SearchPattern := (reader text).map (⟨text, ·⟩)

def caselessChars (s : String) : List Pattern :=
  s.toList.map fun c => .oneOf { items := [.one c], rule := { caseless := true } }

/-- Labels of runner images without a fixed version. -/
def SearchPattern.latest : SearchPattern where
  text := "-latest$"
  occurs := (Pattern.sequence ("-latest".toList.map .char ++ [.place .ending])).occurs

/-- Comments that say that something was looked at. -/
def SearchPattern.justified : SearchPattern where
  text := "(?i)^(justif(ied|ication)|reviewed|safe)\\b"
  occurs := (Pattern.sequence [
    .place .textStart,
    .group 1 (.choice [
      .sequence (caselessChars "justif" ++
        [.group 2 (.choice [
          .sequence (caselessChars "ied"), .sequence (caselessChars "ication")])]),
      .sequence (caselessChars "reviewed"),
      .sequence (caselessChars "safe")]),
    .wordEdge]).occurs

/-- The settings of a review. -/
structure Settings where
  casing : Casing := .allWords
  groupFallback : GroupFallback := .refName
  maxTimeoutMinutes : Limit := ⟨20, by decide⟩
  maxRetentionDays : Limit := ⟨3, by decide⟩
  maxScriptLines : Limit := ⟨10, by decide⟩
  /-- The labels of runners that are no fixed images. -/
  denylist : SearchPattern := .latest
  /-- The labels of runners that need not be fixed images. -/
  exemptRunners : List String := ["ubuntu-slim"]
  /-- The comments that excuse what a rule would find. -/
  justification : SearchPattern := .justified
  /-- How many rules may run at the same time; any number if there is none. -/
  maxWorkers : Option Limit := none

instance : Inhabited Settings := ⟨{}⟩

end FlowLint
