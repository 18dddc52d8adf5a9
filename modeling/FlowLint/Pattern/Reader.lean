import FlowLint.Pattern.Mistake
import FlowLint.Pattern.Syntax
import FlowLint.Text.Identifier

/-! Reading the written form of a pattern. A mistake is reported with its offset in the text, but a
few that are found when the whole has been read. Which characters have names is up to `charNamed`.
-/

namespace FlowLint.Pattern

/-- A character of a pattern, or a character behind a backslash. -/
structure Sign where
  escaped : Bool
  char : Char
  deriving DecidableEq, Repr

/-- How many characters a sign has. -/
def Sign.width (s : Sign) : Nat := if s.escaped then 2 else 1

def Sign.text (s : Sign) : List Char := if s.escaped then ['\\', s.char] else [s.char]

/-- The signs of a text; the flag tells that a single backslash is left at its end. -/
def signs : List Char → List Sign × Bool
  | [] => ([], false)
  | ['\\'] => ([], true)
  | '\\' :: c :: rest => let (s, dangling) := signs rest; (⟨true, c⟩ :: s, dangling)
  | c :: rest => let (s, dangling) := signs rest; (⟨false, c⟩ :: s, dangling)

/-- The letters of the options that are on. -/
abbrev Flags : Type := List Char

namespace Flags

def rule (f : Flags) : CharRule := { caseless := f.contains 'i', ascii := f.contains 'a' }

/-- Letters that may stand for options. -/
def letters : List Char := ['i', 'L', 'm', 's', 'x', 'a', 't', 'u']

/-- Letters of the options that say which characters have a class, of which one is on. -/
def kinds : List Char := ['a', 'L', 'u']

/-- Switches options on and off. -/
def switch (f on off : Flags) : Flags :=
  let kept := if on.any kinds.contains then f.filter fun c => !kinds.contains c else f
  (kept ++ on).filter fun c => !off.contains c

end Flags

/-- The least and the greatest number of characters that a pattern matches. -/
structure Width where
  least : Nat
  most : Nat
  deriving DecidableEq, Repr

namespace Width

def zero : Width := ⟨0, 0⟩

def one : Width := ⟨1, 1⟩

/-- What has no bound counts as so wide; only more than `largest` matters. -/
def unbounded : Nat := Nat.pow 2 64

/-- The greatest number of characters that a pattern can look back over. -/
def largest : Nat := Nat.pow 2 32 - 1

def add (v w : Width) : Width := ⟨v.least + w.least, v.most + w.most⟩

def or (v w : Width) : Width := ⟨min v.least w.least, max v.most w.most⟩

def times (w : Width) (least : Nat) (most : Option Nat) : Width where
  least := w.least * least
  most := match most with
    | some n => w.most * n
    | none => if w.most == 0 then 0 else unbounded

end Width

structure ReadState where
  rest : List Sign
  offset : Nat
  /-- A single backslash stands behind the signs. -/
  dangling : Bool
  nextGroup : Nat := 1
  /-- The groups that are complete. -/
  closed : List (Nat × Width) := []
  names : List (String × Nat) := []
  /-- The numbers of groups that are asked for, with the offsets where they are first. -/
  asked : List (Nat × Nat) := []
  /-- Inside a pattern that looks behind, the first number of a group of its own. -/
  inside : Option Nat := none
  /-- The options that hold for the whole pattern. -/
  flags : Flags := []

abbrev Read (α : Type) : Type := StateT ReadState (Except (Mistake × Nat)) α

/-- What a part of a sequence is, as far as a repetition of it is concerned. -/
inductive Role where
  | ordinary
  | place
  | repetition
  deriving DecidableEq

/-- A part of a pattern that has been read. -/
structure Part where
  pattern : Pattern
  width : Width := .zero
  role : Role := .ordinary
  /-- What is found wrong with it when the whole has been read. -/
  late : Option Mistake := none

namespace Part

def sequence (ps : List Part) : Part where
  pattern := Pattern.sequence (ps.map (·.pattern))
  width := ps.foldl (fun w p => w.add p.width) .zero
  late := ps.findSome? (·.late)

def or (p q : Part) : Part where
  pattern := .alt p.pattern q.pattern
  width := p.width.or q.width
  late := p.late.or q.late

/-- The set that holds one item. -/
def single (flags : Flags) (i : CharItem) : Part where
  pattern := .oneOf { items := [i], rule := flags.rule }
  width := .one

end Part

namespace Read

def fail {α : Type} (m : Mistake) (offset : Nat) : Read α := throw (m, offset)

def offset : Read Nat := return (← get).offset

def peek? : Read (Option Sign) := return (← get).rest.head?

/-- A single backslash at the end of the pattern is found as soon as it would come next. -/
def checkDangling : Read Unit := do
  let s ← get
  if s.rest.isEmpty && s.dangling then fail .danglingEscape s.offset

def next? : Read (Option Sign) := do
  let s ← get
  match s.rest with
  | [] => return none
  | t :: rest =>
    set { s with rest, offset := s.offset + t.width }
    checkDangling
    return some t

/-- Takes the plain character `c`, if it comes next. -/
def accept (c : Char) : Read Bool := do
  if (← peek?) == some ⟨false, c⟩ then
    let _ ← next?
    return true
  else return false

/-- Takes plain characters that satisfy `p`, at most `n`. -/
def takeWhile (p : Char → Bool) : Nat → Read (List Char)
  | 0 => return []
  | n + 1 => do
    match ← peek? with
    | some ⟨false, c⟩ =>
      if p c then
        let _ ← next?
        return c :: (← takeWhile p n)
      else return []
    | _ => return []

/-- Takes a name up to the character `closing`, which is taken too. -/
def nameUntil (closing : Char) (what : String) : Nat → List Char → Read String
  | 0, _ => do fail (.missingName what) (← offset)
  | fuel + 1, done => do
    match ← next? with
    | none =>
      let stop ← offset
      if done.isEmpty then fail (.missingName what) stop
      fail (.unterminatedName closing) (stop - done.length)
    | some s =>
      if s == ⟨false, closing⟩ then
        if done.isEmpty then fail (.missingName what) ((← offset) - 1)
        return .ofList done
      nameUntil closing what fuel (done ++ s.text)

/-- Takes the name of a group. -/
def groupName (closing : Char) : Read String := do
  nameUntil closing "group name" ((← get).rest.length + 1) []

def isDigit (c : Char) : Bool := '0' ≤ c && c ≤ '9'

def isOctal (c : Char) : Bool := '0' ≤ c && c ≤ '7'

def isAsciiLetter (c : Char) : Bool := ('a' ≤ c && c ≤ 'z') || ('A' ≤ c && c ≤ 'Z')

def isHex (c : Char) : Bool := isDigit c || ('a' ≤ c && c ≤ 'f') || ('A' ≤ c && c ≤ 'F')

/-- The number that digits denote to a base up to 16. -/
def number (base : Nat) (ds : List Char) : Nat :=
  ds.foldl (fun n d =>
    base * n + (if isDigit d then d.toNat - 0x30
      else if 'a' ≤ d then d.toNat - 0x57 else d.toNat - 0x37)) 0

/-- The control character that a letter behind a backslash stands for. -/
def controls : List (Char × Char) := [
  ('a', '\x07'), ('f', '\x0c'), ('n', '\n'), ('r', '\r'), ('t', '\t'), ('v', '\x0b'),
  ('\\', '\\')]

/-- The class that a letter behind a backslash stands for. -/
def classes : List (Char × CharItem) := [
  ('d', .ofClass .digit), ('D', .notOfClass .digit), ('s', .ofClass .blank),
  ('S', .notOfClass .blank), ('w', .ofClass .word), ('W', .notOfClass .word)]

/-- The place that a letter behind a backslash stands for. -/
def place? (r : CharRule) (c : Char) : Option Place :=
  if c == 'A' then some .textStart
  else if c == 'Z' then some .textEnd
  else if c == 'b' then some (if r.ascii then .asciiWordEdge else .wordEdge)
  else if c == 'B' then some (if r.ascii then .noAsciiWordEdge else .noWordEdge)
  else none

/-- The character with a code; half of a surrogate pair is none. -/
def itemOfCode (code : Nat) : CharItem :=
  if code.isValidChar then .one (Char.ofNat code) else .span code code

/-- The code of a single character. -/
def code? : CharItem → Option Nat
  | .one c => some c.toNat
  | .span low high => if low == high then some low else none
  | .ofClass _ | .notOfClass _ => none

/-- Reads the digits of a character code behind `\x`, `\u` or `\U`. -/
def codeEscape (c : Char) (width : Nat) : Read CharItem := do
  let digits ← takeWhile isHex width
  let escape := '\\' :: c :: digits
  let start := (← offset) - escape.length
  if digits.length != width then fail (.shortEscape (.ofList escape)) start
  let code := number 16 digits
  if 0x80000000 ≤ code then fail .largeCode start
  if 0x110000 ≤ code then fail (.badEscape (.ofList escape)) start
  return itemOfCode code

/-- Reads up to two further octal digits. -/
def octalEscape (first : Char) : Read CharItem := do
  let digits := first :: (← takeWhile isOctal 2)
  let code := number 8 digits
  if 0o377 < code then
    fail (.largeOctal (.ofList ('\\' :: digits))) ((← offset) - digits.length - 1)
  return itemOfCode code

/-- A group can be referred to if it is complete and no part of a pattern that looks behind and in
which the reference stands. -/
def checkInside (group : Nat) : Read Unit := do
  let s ← get
  match s.inside with
  | none => return
  | some first =>
    if (s.closed.lookup group).isNone then fail .openGroup s.offset
    if first ≤ group then fail .groupInside s.offset

/-- A reference to a group, which is written from `start` on. -/
def reference (flags : Flags) (group start : Nat) : Read Part := do
  match (← get).closed.lookup group with
  | none => fail .openGroup start
  | some width =>
    checkInside group
    return { pattern := .again group flags.rule, width }

/-- Reads a digit behind a backslash that is not zero, with what belongs to it: three octal digits
are a character, one or two digits refer to a group. -/
def groupOrOctal (flags : Flags) (c : Char) : Read Part := do
  let more ← takeWhile isDigit 1
  let third ← if isOctal c && !more.isEmpty && more.all isOctal then takeWhile isOctal 1
    else pure []
  let digits := c :: more ++ third
  let start := (← offset) - digits.length - 1
  if !third.isEmpty then
    let code := number 8 digits
    if 0o377 < code then fail (.largeOctal (.ofList ('\\' :: digits))) start
    return .single flags (itemOfCode code)
  let group := number 10 digits
  if (← get).nextGroup ≤ group then fail (.noSuchGroup group) (start + 1)
  reference flags group start

section

variable (charNamed : String → Option Char)

/-- Reads the name of a character in braces. -/
def namedEscape : Read CharItem := do
  if !(← accept '\x7b') then fail .missingBrace (← offset)
  let name ← nameUntil '\x7d' "character name" ((← get).rest.length + 1) []
  match charNamed name with
  | some c => return .one c
  | none => fail (.unknownCharacter name) ((← offset) - name.length - 4)

/-- Reads the rest of an escape that stands for one character and means the same inside and outside
of a set. -/
def commonEscape (c : Char) : Read CharItem := do
  if c == 'x' then codeEscape c 2
  else if c == 'u' then codeEscape c 4
  else if c == 'U' then codeEscape c 8
  else if c == 'N' then namedEscape charNamed
  else if isAsciiLetter c || isDigit c then
    fail (.badEscape (.ofList ['\\', c])) ((← offset) - 2)
  else return .one c

/-- Reads the rest of an escape inside a set. -/
def setEscape (c : Char) : Read CharItem := do
  match controls.lookup c, classes.lookup c with
  | some d, _ => return .one d
  | none, some k => return k
  | none, none =>
    if c == 'b' then return .one '\x08'
    else if isOctal c then octalEscape c
    else commonEscape charNamed c

/-- Reads the rest of an escape outside of a set. -/
def escape (flags : Flags) (c : Char) : Read Part := do
  match place? flags.rule c, classes.lookup c, controls.lookup c with
  | some p, _, _ => return { pattern := .place p, role := .place }
  | none, some k, _ => return .single flags k
  | none, none, some d => return .single flags (.one d)
  | none, none, none =>
    if c == '0' then return .single flags (← octalEscape c)
    else if isDigit c then groupOrOctal flags c
    else return .single flags (← commonEscape charNamed c)

def setItem (s : Sign) : Read CharItem :=
  if s.escaped then setEscape charNamed s.char else return .one s.char

/-- Reads the items of a set, whose opening bracket stands at `start`, up to its closing bracket. -/
def setItems (start : Nat) : Nat → List CharItem → Read (List CharItem)
  | 0, _ => fail .unterminatedSet start
  | fuel + 1, done => do
    match ← next? with
    | none => fail .unterminatedSet start
    | some s =>
      if s == ⟨false, ']'⟩ && !done.isEmpty then return done
      let low ← setItem charNamed s
      if ← accept '-' then
        match ← next? with
        | none => fail .unterminatedSet start
        | some t =>
          if t == ⟨false, ']'⟩ then return done ++ [low, .one '-']
          let high ← setItem charNamed t
          let bad : Read (List CharItem) := do
            fail (.badRange (.ofList s.text) (.ofList t.text))
              ((← offset) - s.width - 1 - t.width)
          match code? low, code? high with
          | some a, some b =>
            if b < a then bad else setItems start fuel (done ++ [.span a b])
          | _, _ => bad
      else setItems start fuel (done ++ [low])

end

/-- The bounds of a repetition in braces: at least, and at most. -/
structure Bounds where
  least : Nat
  most : Option Nat

/-- The number that digits denote as a bound; `none` if there are no digits. -/
def bound (ds : List Char) (start : Nat) : Read (Option Nat) := do
  if Text.Integer.maxDigits < ds.length then fail (.longNumber (.tooLong ds.length)) start
  let n := number 10 ds
  if Nat.pow 2 32 - 1 ≤ n then fail .largeBound start
  return if ds.isEmpty then none else some n

/-- Reads the bounds behind an opening brace, which stands before `start`; `none` if these are no
bounds, and then nothing is taken. -/
def bounds? (start : Nat) : Read (Option Bounds) := do
  let before ← get
  let fuel := before.rest.length
  let low ← takeWhile isDigit fuel
  let comma ← accept ','
  let high ← if comma then takeWhile isDigit fuel else pure low
  if !(← accept '\x7d') then
    set before
    return none
  let least := (← bound low start).getD 0
  let most ← bound high start
  if most.any (· < least) then fail .reversedBounds start
  return some ⟨least, most⟩

/-- Takes letters of options from `c` on up to one of the signs `stops`, which comes with the
letters; `wanted` is what may follow a letter. -/
def flagRun (stops : List Char) (wanted : String) (check : Flags → Char → Option Mistake) :
    Nat → Flags → Char → Read (Flags × Char)
  | 0, done, _ => return (done, ')')
  | fuel + 1, done, c => do
    if let some m := check done c then fail m (← offset)
    let done := done ++ [c]
    match ← next? with
    | none => fail (.unclosedFlags wanted) (← offset)
    | some s =>
      if s.escaped then fail (.unclosedFlags wanted) ((← offset) - 2)
      if stops.contains s.char then return (done, s.char)
      if !Flags.letters.contains s.char then
        fail (if Text.isLetter s.char then .unknownFlag else .unclosedFlags wanted) ((← offset) - 1)
      flagRun stops wanted check fuel done s.char

/-- A letter cannot be switched on together with the letters before it. -/
def refusedOn (done : Flags) (c : Char) : Option Mistake :=
  if c == 'L' then some .localeFlag
  else if Flags.kinds.contains c && done.any fun d => d != c && Flags.kinds.contains d then
    some .incompatibleFlags
  else none

def refusedOff (_ : Flags) (c : Char) : Option Mistake :=
  if Flags.kinds.contains c then some .fixedFlag else none

/-- What the letters of a group switch. -/
inductive FlagChange where
  /-- Options of the whole pattern. -/
  | whole (on : Flags)
  /-- Options of what follows in the group. -/
  | group (on off : Flags)

/-- Reads the letters of options from `c` on. -/
def flagChange (c : Char) : Read FlagChange := do
  let fuel := (← get).rest.length + 1
  let (on, stop) ← if c == '-' then pure ([], c)
    else flagRun [')', '-', ':'] "-, : or )" refusedOn fuel [] c
  if stop == ')' then return .whole on
  if on.contains 't' then fail (.globalFlag "on") ((← offset) - 1)
  let off ← if stop == '-' then do
      match ← next? with
      | none => fail .missingFlag (← offset)
      | some s =>
        if s.escaped then fail .missingFlag ((← offset) - 2)
        if !Flags.letters.contains s.char then
          fail (if Text.isLetter s.char then .unknownFlag else .missingFlag) ((← offset) - 1)
        pure (← flagRun [':'] ":" refusedOff fuel [] s.char).1
    else pure []
  if off.contains 't' then fail (.globalFlag "off") ((← offset) - 1)
  if on.any off.contains then fail .flagOnAndOff ((← offset) - 1)
  return .group on off

/-- Opens a group; its number. -/
def openGroup (name : Option String) : Read Nat := do
  let s ← get
  match name with
  | none => set { s with nextGroup := s.nextGroup + 1 }
  | some name =>
    match s.names.lookup name with
    | some first =>
      fail (.repeatedName name s.nextGroup first) (s.offset - name.length - 1)
    | none =>
      set { s with nextGroup := s.nextGroup + 1, names := (name, s.nextGroup) :: s.names }
  return s.nextGroup

/-- Takes the parenthesis that closes a group opened at `start`. -/
def closing (start : Nat) : Read Unit := do
  if !(← accept ')') then fail .unterminatedGroup start

/-- Passes over a comment up to its closing parenthesis. -/
def comment (start : Nat) : Nat → Read Unit
  | 0 => return
  | fuel + 1 => do
    match ← next? with
    | none => fail .unterminatedComment start
    | some s => if s == ⟨false, ')'⟩ then return else comment start fuel

/-- Passes over a comment up to the end of its line. -/
def lineComment : Nat → Read Unit
  | 0 => return
  | fuel + 1 => do
    match ← next? with
    | none => return
    | some s => if s == ⟨false, '\n'⟩ then return else lineComment fuel

/-- White space that is passed over in verbose patterns. -/
def isSpacing (c : Char) : Bool :=
  c == ' ' || c == '\t' || c == '\n' || c == '\r' || c == '\x0b' || c == '\x0c'

/-- Repeats the last part between the bounds; `start` is where the repetition sign stands. -/
def repeatLast (parts : List Part) (b : Bounds) (start : Nat) : Read (List Part) := do
  match parts with
  | [] => fail .nothingToRepeat start
  | last :: earlier =>
    match last.role with
    | .place => fail .nothingToRepeat start
    | .repetition => fail .repeatedRepeat start
    | .ordinary =>
      let lazily ← accept '?'
      let possessive ← if lazily then pure false else accept '+'
      let more := b.most.map (· - b.least)
      let pattern : Pattern :=
        if possessive then .atomic (.rep (.atomic last.pattern) b.least more true)
        else .rep last.pattern b.least more (!lazily)
      let kind := if lazily then "MIN_REPEAT" else if possessive then "POSSESSIVE_REPEAT"
        else "MAX_REPEAT"
      let late := if (← get).flags.contains 't' then some (.templateRepeat kind) else last.late
      return ⟨pattern, last.width.times b.least b.most, .repetition, late⟩ :: earlier

/-- What a group makes of its contents. -/
inductive GroupKind where
  | plain
  | capture (number : Nat)
  | ahead (wanted : Bool)
  /-- `outer` is what the whole group is inside of. -/
  | behind (wanted : Bool) (outer : Option Nat)
  | atomic

/-- What the beginning of a group says. -/
inductive Opening where
  /-- The contents follow. -/
  | contents (kind : GroupKind) (scope : Option Flags)
  /-- Two branches follow, of which a group with the number makes the choice. -/
  | branches (number : Nat)
  /-- Nothing follows. -/
  | complete (part : Option Part)

/-- Reads the name or the number of the group that makes a choice. -/
def condition : Read Nat := do
  let name ← groupName ')'
  let place := (← offset) - name.length - 1
  let group ← if Text.isIdentifier name then
      match (← get).names.lookup name with
      | some number => pure number
      | none => fail (.unknownName name) place
    else match Text.Integer.read name with
      | .error _ => fail (.badName name) place
      | .ok n =>
        if n < 0 then fail (.badName name) place
        if n == 0 then fail .badNumber place
        if 0x3FFFFFFF ≤ n then fail (.noSuchGroup n.toNat) place
        modify fun s =>
          if (s.asked.lookup n.toNat).isSome then s
          else { s with asked := s.asked ++ [(n.toNat, place)] }
        pure n.toNat
  checkInside group
  return group

/-- Reads the beginning of a group behind `(?`; its parenthesis stands at `start`. Options of the
whole pattern may be set only at its beginning. -/
def extension (scope : Option Flags) (first : Bool) (start : Nat) : Read Opening := do
  let flags := scope.getD (← get).flags
  let unknown (sign : String) (t : Sign) : Read Opening := do
    fail (.unknownExtension (sign ++ .ofList t.text)) ((← offset) - t.width - sign.length)
  match ← next? with
  | none => fail .unexpectedEnd (← offset)
  | some s =>
    if s.escaped then unknown "?" s
    else if s.char == 'P' then
      if ← accept '<' then
        let name ← groupName '>'
        if !Text.isIdentifier name then fail (.badName name) ((← offset) - name.length - 1)
        return .contents (.capture (← openGroup (some name))) scope
      else if ← accept '=' then
        let name ← groupName ')'
        let place := (← offset) - name.length - 1
        if !Text.isIdentifier name then fail (.badName name) place
        match (← get).names.lookup name with
        | none => fail (.unknownName name) place
        | some number => return .complete (some (← reference flags number place))
      else match ← next? with
        | none => fail .unexpectedEnd (← offset)
        | some t => unknown "?P" t
    else if s.char == ':' then return .contents .plain scope
    else if s.char == '#' then
      comment start ((← get).rest.length + 1)
      return .complete none
    else if s.char == '=' then return .contents (.ahead true) scope
    else if s.char == '!' then return .contents (.ahead false) scope
    else if s.char == '<' then
      match ← next? with
      | none => fail .unexpectedEnd (← offset)
      | some t =>
        if t == ⟨false, '='⟩ || t == ⟨false, '!'⟩ then
          let outer := (← get).inside
          modify fun s => { s with inside := some (outer.getD s.nextGroup) }
          return .contents (.behind (t.char == '=') outer) scope
        else unknown "?<" t
    else if s.char == '(' then return .branches (← condition)
    else if s.char == '>' then return .contents .atomic scope
    else if s.char == '-' || Flags.letters.contains s.char then
      match ← flagChange s.char with
      | .whole on =>
        if !first then fail .lateFlags start
        modify fun s => { s with flags := s.flags ++ on }
        return .complete none
      | .group on off => return .contents .plain (some (flags.switch on off))
    else unknown "?" s

/-- Takes the parenthesis behind the contents of a group and makes the group of them. -/
def close (kind : GroupKind) (start : Nat) (body : Part) : Read Part := do
  if let .behind _ outer := kind then modify ({ · with inside := outer })
  if !(← accept ')') then fail .unterminatedGroup start
  match kind with
  | .plain => return { body with role := .ordinary }
  | .capture number =>
    modify fun s => { s with closed := (number, body.width) :: s.closed }
    return ⟨.group number body.pattern, body.width, .ordinary, body.late⟩
  | .ahead wanted => return ⟨.ahead body.pattern wanted, .zero, .ordinary, body.late⟩
  | .behind wanted _ =>
    let late :=
      if Width.largest < body.width.least then some .largeWidth
      else if body.width.least != body.width.most then some .variableWidth
      else body.late
    return ⟨.behind body.width.least body.pattern wanted, .zero, .ordinary, late⟩
  | .atomic => return ⟨.atomic body.pattern, body.width, .ordinary, body.late⟩

section

variable (charNamed : String → Option Char)

mutual

/-- Reads alternatives. The options of the whole pattern may stand at the beginning of the first. -/
def alternatives (scope : Option Flags) (top : Bool) : Nat → Read Part
  | 0 => return { pattern := .empty }
  | fuel + 1 => do
    let first ← parts scope top fuel []
    if ← accept '|' then return first.or (← alternatives scope false fuel)
    else return first

/-- Reads the parts of a sequence, of which `done` has been read, the last first. -/
def parts (scope : Option Flags) (top : Bool) : Nat → List Part → Read Part
  | 0, done => return .sequence done.reverse
  | fuel + 1, done => do
    match ← peek? with
    | none => return .sequence done.reverse
    | some s =>
      if s == ⟨false, '|'⟩ || s == ⟨false, ')'⟩ then return .sequence done.reverse
      let start ← offset
      let _ ← next?
      let flags := scope.getD (← get).flags
      let add (p : Part) : Read Part := parts scope top fuel (p :: done)
      let literal (c : Char) : Read Part := add (.single flags (.one c))
      if s.escaped then add (← escape charNamed flags s.char)
      else if flags.contains 'x' && isSpacing s.char then parts scope top fuel done
      else if flags.contains 'x' && s.char == '#' then
        lineComment fuel
        parts scope top fuel done
      else if s.char == '[' then
        let negated ← accept '^'
        let items ← setItems charNamed start fuel []
        add { pattern := .oneOf { items, negated, rule := flags.rule }, width := .one }
      else if s.char == '?' then
        parts scope top fuel (← repeatLast done ⟨0, some 1⟩ start)
      else if s.char == '*' then
        parts scope top fuel (← repeatLast done ⟨0, none⟩ start)
      else if s.char == '+' then
        parts scope top fuel (← repeatLast done ⟨1, none⟩ start)
      else if s.char == '\x7b' then
        if (← peek?) == some ⟨false, '\x7d'⟩ then literal s.char
        else match ← bounds? (start + 1) with
          | none => literal s.char
          | some b => parts scope top fuel (← repeatLast done b start)
      else if s.char == '.' then
        let items : List CharItem := if flags.contains 's' then [] else [.one '\n']
        add { pattern := .oneOf { items, negated := true }, width := .one }
      else if s.char == '^' then
        let place : Place := if flags.contains 'm' then .lineStart else .textStart
        add { pattern := .place place, role := .place }
      else if s.char == '$' then
        let place : Place := if flags.contains 'm' then .lineEnd else .ending
        add { pattern := .place place, role := .place }
      else if s.char == '(' then
        match ← group scope (top && done.isEmpty) start fuel with
        | none => parts scope top fuel done
        | some p => add p
      else literal s.char

/-- Reads a group behind its opening parenthesis, which stands at `start`; `none` if it is a comment
or sets the options of the whole pattern. -/
def group (scope : Option Flags) (first : Bool) (start : Nat) : Nat → Read (Option Part)
  | 0 => return none
  | fuel + 1 => do
    let opening : Opening ← if ← accept '?' then extension scope first start
      else pure (.contents (.capture (← openGroup none)) scope)
    match opening with
    | .complete part => return part
    | .branches number =>
      let kept ← parts scope false fuel []
      let missing ← if ← accept '|' then parts scope false fuel [] else pure { pattern := .empty }
      if (← peek?) == some ⟨false, '|'⟩ then fail .thirdBranch (← offset)
      let both := kept.or missing
      close .plain start { both with pattern := .choose number kept.pattern missing.pattern }
    | .contents kind scope => close kind start (← alternatives scope false fuel)

end

/-- Reads a whole pattern. What is wrong with a part that could be read is reported last. -/
def whole (fuel : Nat) : Read Part := do
  checkDangling
  let p ← alternatives charNamed none true fuel
  let s ← get
  if s.flags.contains 'a' && s.flags.contains 'u' then fail .bothRules s.offset
  if !s.rest.isEmpty then fail .unbalanced s.offset
  if let some g := s.asked.find? fun g => s.nextGroup ≤ g.1 then fail (.noSuchGroup g.1) g.2
  return p

end

end Read

def read (charNamed : String → Option Char) (text : String) : Except ReadError Pattern :=
  let s := text.toList
  let (rest, dangling) := signs s
  match (Read.whole charNamed (5 * s.length + 8)).run { rest, dangling, offset := 0 } with
  | .error (m, offset) => .error (.ofMistake s m (some offset))
  | .ok (p, _) =>
    match p.late with
    | some m => .error (.ofMistake s m none)
    | none => .ok p.pattern

example : (read (fun _ => none) "(?<!x)a").toOption =
    some (.seq (.behind 1 (.char 'x') false) (.char 'a')) := by decide +kernel
example : (match read (fun _ => none) "(?<=x*)a" with
    | .ok _ => none
    | .error e => some e.message) = some "look-behind requires fixed-width pattern" := by
  decide +kernel

end FlowLint.Pattern
