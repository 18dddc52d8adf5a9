import FlowLint.Yaml.Token.Quoted

/-! Anchors, aliases and tags. Of a tag only its handle is kept: whether the handle is known is all
that a later part asks. -/

namespace FlowLint.Yaml

/-- An ASCII letter or digit. -/
def isAsciiAlphanumeric (c : Char) : Bool :=
  ('0' ≤ c && c ≤ '9') || ('A' ≤ c && c ≤ 'Z') || ('a' ≤ c && c ≤ 'z')

def isNameChar (c : Char) : Bool :=
  let n := c.toNat
  !(c == ',' || c == '[' || c == ']' || c == '\x7b' || c == '\x7d') &&
    ((0x21 ≤ n && n ≤ 0x7E) || (0xA0 ≤ n && n ≤ 0xFFFD && n != 0xFEFF) ||
      0x10000 ≤ n)

def mayFollowName (c : Char) : Bool :=
  isGap c || c == '?' || c == ':' || c == ',' || c == '[' || c == ']' || c == '\x7b' ||
    c == '\x7d' || c == '%' || c == '@' || c == '\x60'

/-- A character of a tag handle between its exclamation marks. -/
def isHandleChar (c : Char) : Bool := isAsciiAlphanumeric c || c == '-' || c == '_'

/-- A character of a URI, the sign of an escape included. A number sign is one but in versions up to
1.1. -/
def isUriChar (v : Version) (c : Char) : Bool :=
  isAsciiAlphanumeric c || "-;/?:@&=+$,_.!~*'()[]%".toList.contains c || (v.isNew && c == '#')

/-- What a tag or its parts are read for; the report of a problem depends on it. -/
inductive TagUse where
  | tag
  | directive
  deriving DecidableEq, Repr

def TagUse.handleTask : TagUse → Task
  | .tag => .tagHandle
  | .directive => .directiveHandle

def TagUse.uriTask : TagUse → Task
  | .tag => .tagUri
  | .directive => .directiveUri

namespace Scan

/-- Reads an anchor or an alias: the indicator and a name. -/
def name (task : Task) : Scan (List Char) := do
  let start ← position
  skip 1
  let found ← takeWhile isNameChar
  let c ← peek
  if found.isEmpty || !mayFollowName c then failHere task start (.wantedAlphanumeric c)
  return found

/-- Reads a tag handle: an exclamation mark, a word and a second exclamation mark, or an exclamation
mark before a space. -/
def tagHandle (purpose : TagUse) (start : Position) : Scan (List Char) := do
  let c ← peek
  if c != '!' then failHere purpose.handleTask start (.wantedBang c)
  if (← peekAt 1) == ' ' then
    skip 1
    return ['!']
  let word := ((← get).rest.drop 1).takeWhile isHandleChar
  let closing ← peekAt (word.length + 1)
  if closing != '!' then
    skip (word.length + 1)
    failHere purpose.handleTask start (.wantedClosingBang closing)
  skip (word.length + 2)
  return '!' :: word ++ ['!']

/-- Reads a run of escaped bytes as UTF-8. -/
def uriEscapes (purpose : TagUse) (start : Position) : Scan Unit := do
  let place ← position
  let bytes ← run (← bound)
  match Text.Utf8.decode bytes with
  | .ok _ => return
  | .error fault => throw (.during purpose.handleTask start (.uriEncoding fault) place)
where
  run : Nat → Scan (List Nat)
    | 0 => return []
    | fuel + 1 => do
      if (← peek) != '%' then return []
      skip 1
      let byte ← hexNumber purpose.handleTask start .wantedUriEscape 2
      skip 2
      return byte :: (← run fuel)

/-- Moves past a URI; the flag tells that some of it has been read. -/
def uriParts (purpose : TagUse) (v : Version) (start : Position) : Nat → Bool → Scan Unit
  | 0, _ => return
  | fuel + 1, begun => do
    let run ← takeWhile fun c => isUriChar v c && c != '%'
    let c ← peek
    if c == '%' then
      uriEscapes purpose start
      uriParts purpose v start fuel true
    else if !begun && run.isEmpty then failHere purpose.uriTask start (.wantedUri c)

/-- Moves past a URI, which has to be there. -/
def uri (purpose : TagUse) (v : Version) (start : Position) : Scan Unit := do
  uriParts purpose v start (← bound) false

/-- Another exclamation mark stands before the next end of line or space. -/
def bangAhead : List Char → Bool
  | [] => false
  | c :: s => if isEndOrSpace c then false else c == '!' || bangAhead s

/-- Reads a tag; its handle, or none if the tag is verbatim or stands alone. -/
def tag (v : Version) : Scan (Option (List Char)) := do
  let start ← position
  let double := (← peekAt 1) == '!'
  if double then skip 1
  let short := if double then ['!', '!'] else ['!']
  let c ← peekAt 1
  let handle ←
    if c == '<' then do
      skip 2
      uri .tag v start
      let c ← peek
      if c != '>' then failHere .verbatimTag start (.wantedClosingAngle c)
      skip 1
      pure none
    else if isGap c then do
      skip 1
      pure none
    else do
      let ahead := (← get).rest.drop 1
      let word := ahead.takeWhile fun c => !isEndOrSpace c && c != '!'
      let _ ← peekAt (word.length + 1)
      let handle ← if bangAhead ahead then tagHandle .tag start else do
        skip 1
        pure short
      uri .tag v start
      pure (some handle)
  let c ← peek
  if !isEndOrSpace c then failHere .tag start (.wantedSpace c)
  return handle

end Scan

end FlowLint.Yaml
