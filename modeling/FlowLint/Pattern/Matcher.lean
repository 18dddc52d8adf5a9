import FlowLint.Pattern.Syntax

/-! Matching by trying the possibilities of a pattern in order. `Pattern.run` hands the place behind
a match to what has to follow; if that fails, the next possibility is tried. `Pattern.search` finds
the match that begins leftmost. -/

namespace FlowLint

/-- Where the match of a group begins or ends. -/
inductive Edge where
  | first (group : Nat)
  | last (group : Nat)
  deriving DecidableEq, Repr

/-- A place in a text: the characters before it, the last first, and those behind it. The edges of
groups that have been passed come with their offsets, the last first. -/
structure Spot where
  before : List Char
  after : List Char
  offset : Nat
  edges : List (Edge × Nat) := []
  deriving DecidableEq, Repr

namespace Spot

/-- The beginning of a text. -/
def start (text : List Char) : Spot := ⟨[], text, 0, []⟩

def next? (p : Spot) : Option (Char × Spot) :=
  match p.after with
  | [] => none
  | c :: rest => some (c, { p with before := c :: p.before, after := rest, offset := p.offset + 1 })

/-- The place so many characters before. -/
def back? (p : Spot) (width : Nat) : Option Spot :=
  if width ≤ p.before.length then
    some { p with
      before := p.before.drop width
      after := (p.before.take width).reverse ++ p.after
      offset := p.offset - width }
  else none

/-- Passes over characters that count as those of a text. -/
def pass? (r : CharRule) : List Char → Spot → Option Spot
  | [], p => some p
  | d :: text, p =>
    match p.next? with
    | some (c, q) => if r.same d c then pass? r text q else none
    | none => none

def mark (p : Spot) (e : Edge) : Spot := { p with edges := (e, p.offset) :: p.edges }

/-- What a group matched last, if it has matched. -/
def kept? (p : Spot) (group : Nat) : Option (List Char) :=
  match p.edges.lookup (.first group), p.edges.lookup (.last group) with
  | some first, some last =>
    if first ≤ last then some (((p.before.reverse ++ p.after).drop first).take (last - first))
    else none
  | _, _ => none

/-- The characters of words are those that satisfy `isWord`. -/
def atEdge (isWord : Char → Bool) (p : Spot) : Bool :=
  p.before.head?.any isWord != p.after.head?.any isWord

def atWordEdge (p : Spot) : Bool := p.atEdge Text.isWordChar

end Spot

/-- The spot is such a place. In the empty text there is neither an edge of a word nor its absence.
-/
def Place.holds : Place → Spot → Bool
  | .textStart, p => p.before.isEmpty
  | .ending, p => p.after.isEmpty || p.after == ['\n']
  | .textEnd, p => p.after.isEmpty
  | .lineStart, p => p.before.head?.all (· == '\n')
  | .lineEnd, p => p.after.head?.all (· == '\n')
  | .wordEdge, p => p.atWordEdge
  | .noWordEdge, p => !p.atWordEdge && !(p.before.isEmpty && p.after.isEmpty)
  | .asciiWordEdge, p => p.atEdge isAsciiWordChar
  | .noAsciiWordEdge, p => !p.atEdge isAsciiWordChar && !(p.before.isEmpty && p.after.isEmpty)

namespace Pattern

/-- What has to follow a match: it gives where the whole match ends. -/
abbrev Follow : Type := Spot → Option Spot

/-- `n` matches of `body` in a row. -/
def times (body : Spot → Follow → Option Spot) : Nat → Spot → Follow → Option Spot
  | 0, p, k => k p
  | n + 1, p, k => body p fun q => times body n q k

/-- Up to `n` matches of `body` in a row: as many as possible first, or as few as possible first. A
match that does not move on is the last. -/
def upTo (body : Spot → Follow → Option Spot) (greedy : Bool) : Nat → Spot → Follow → Option Spot
  | 0, p, k => k p
  | n + 1, p, k =>
    let another := fun _ : Unit =>
      body p fun q => if p.offset < q.offset then upTo body greedy n q k else k q
    if greedy then (another ()).orElse fun _ => k p
    else (k p).orElse another

/-- Goes on at `p` with what a match elsewhere keeps, or without it if none is wanted. -/
def look (found : Option Spot) (wanted : Bool) (p : Spot) (k : Follow) : Option Spot :=
  match found, wanted with
  | some q, true => k { p with edges := q.edges }
  | none, false => k p
  | _, _ => none

/-- Matches a pattern at a place, followed by what `k` accepts. -/
def run : Pattern → Spot → Follow → Option Spot
  | .empty, p, k => k p
  | .oneOf s, p, k =>
    match p.next? with
    | some (c, q) => if s.has c then k q else none
    | none => none
  | .place l, p, k => if l.holds p then k p else none
  | .seq a b, p, k => a.run p fun q => b.run q k
  | .alt a b, p, k => (a.run p k).orElse fun _ => b.run p k
  | .rep body least more greedy, p, k =>
    times body.run least p fun q =>
      upTo body.run greedy (more.getD (q.after.length + 1)) q k
  | .ahead body wanted, p, k => look (body.run p some) wanted p k
  | .behind width body wanted, p, k =>
    look ((p.back? width).bind fun q => body.run q some) wanted p k
  | .atomic body, p, k => (body.run p some).bind k
  | .group n body, p, k => body.run (p.mark (.first n)) fun q => k (q.mark (.last n))
  | .again n rule, p, k => ((p.kept? n).bind fun text => p.pass? rule text).bind k
  | .choose n kept missing, p, k =>
    if (p.kept? n).isSome then kept.run p k else missing.run p k

/-- The end of the match at a place. -/
def matchAt (pat : Pattern) (p : Spot) : Option Spot := pat.run p some

/-- The first match at or behind a place, as its beginning and its end. -/
def searchFrom (pat : Pattern) :
    (after : List Char) → (before : List Char) → Nat → Option (Spot × Spot)
  | [], before, n =>
    let p : Spot := ⟨before, [], n, []⟩
    (pat.matchAt p).map (p, ·)
  | c :: rest, before, n =>
    let p : Spot := ⟨before, c :: rest, n, []⟩
    match pat.matchAt p with
    | some q => some (p, q)
    | none => searchFrom pat rest (c :: before) (n + 1)

/-- The first match in a text. -/
def search (pat : Pattern) (text : List Char) : Option (Spot × Spot) :=
  searchFrom pat text [] 0

def occursIn (pat : Pattern) (text : List Char) : Bool := (pat.search text).isSome

def occurs (pat : Pattern) (text : String) : Bool := pat.occursIn text.toList

/-- The text between two places, the second not before the first. -/
def between (p q : Spot) : List Char := p.after.take (q.offset - p.offset)

example : (Pattern.atLeastOnce (.char 'a')).occurs "baac" = true := by decide
example : ((Pattern.few (.char 'a')).seq (.char 'b')).search "xaab".toList =
    some (⟨['x'], ['a', 'a', 'b'], 1, []⟩, ⟨['b', 'a', 'a', 'x'], [], 4, []⟩) := by decide
example : (Pattern.many (.optional (.char 'a'))).occurs "" = true := by decide

end Pattern

end FlowLint
