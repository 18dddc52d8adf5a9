import FlowLint.Yaml.Token.Block
import FlowLint.Yaml.Token.Property

/-! Directives: the lines that begin with a percent sign. -/

namespace FlowLint.Yaml.Scan

def isDirectiveChar (c : Char) : Bool :=
  isAsciiAlphanumeric c || c == '-' || c == '_' || c == ':' || c == '.'

def directiveName (start : Position) : Scan (List Char) := do
  let found ← takeWhile isDirectiveChar
  let c ← peek
  if found.isEmpty || !isEndOrSpace c then failHere .directive start (.wantedAlphanumeric c)
  return found

/-- Reads one of the two numbers of a version. -/
def versionNumber (start : Position) : Scan Nat := do
  let c ← peek
  if (asciiDigit? c).isNone then failHere .directive start (.wantedDigit c)
  let digits := (← get).rest.takeWhile fun c => (asciiDigit? c).isSome
  let _ ← peekAt digits.length
  if Text.Integer.maxDigits < digits.length then throw (.longNumber digits.length)
  skip digits.length
  return Text.Integer.ofDigits (digits.filterMap asciiDigit?)

def version (start : Position) : Scan Version := do
  skipWhile (· == ' ')
  let major ← versionNumber start
  let c ← peek
  if c != '.' then failHere .directive start (.wantedDigitOrDot c)
  skip 1
  let minor ← versionNumber start
  let c ← peek
  if !isEndOrSpace c then failHere .directive start (.wantedDigitOrDot c)
  return ⟨major, minor⟩

/-- Reads a tag handle and the URI that it stands for. -/
def handleDefinition (v : Version) (start : Position) : Scan (List Char) := do
  skipWhile (· == ' ')
  let handle ← tagHandle .directive start
  let c ← peek
  if c != ' ' then failHere .directive start (.wantedSpace c)
  skipWhile (· == ' ')
  uri .directive v start
  let c ← peek
  if !isEndOrSpace c then failHere .directive start (.wantedSpace c)
  return handle

/-- Reads a directive with its line; the place where it stops comes with it. -/
def directive (v : Version) : Scan (Directive × Position) := do
  let start ← position
  skip 1
  let found ← directiveName start
  let result ← if found == "YAML".toList then do
      pure (Directive.version (← version start))
    else if found == "TAG".toList then do
      pure (Directive.tagHandle (.ofList (← handleDefinition v start)))
    else pure Directive.other
  let stop ← position
  if result == .other then skipWhile (!isEnd ·)
  restOfLine .directive start
  return (result, stop)

end FlowLint.Yaml.Scan
