import FlowLint.Tree.Builder

/-! Documents as they are written, and what can be wrong with them. In a `Written` an alias stands
for itself, so every stream of events that a text can have is `events documents` for some documents,
whether or not there is a tree for it, or a beginning of such a stream. `moments` says for each
event of the stream what matters of what stands around and before it, and `Moment.Violates` when the
event breaks a rule. None of this knows how a tree is built. -/

namespace FlowLint.Tree

open Yaml (Event Position ScalarStyle)

/-- A node as it is written. -/
inductive Written where
  | alias (name : String) (start : Position)
  | scalar (value : String) (style : ScalarStyle) (anchor : Option String) (start stop : Position)
  | sequence (flow : Bool) (anchor : Option String) (start : Position) (items : List Written)
  | mapping (flow : Bool) (anchor : Option String) (start : Position)
      (entries : List (Written × Written))

namespace Written

def start : Written → Position
  | .alias _ p => p
  | .scalar _ _ _ p _ => p
  | .sequence _ _ p _ => p
  | .mapping _ _ p _ => p

/-- The name that aliases can use for the node. -/
def anchor? : Written → Option String
  | .alias _ _ => none
  | .scalar _ _ anchor _ _ => anchor
  | .sequence _ anchor _ _ => anchor
  | .mapping _ anchor _ _ => anchor

def isCollection : Written → Bool
  | .sequence .. => true
  | .mapping .. => true
  | _ => false

/-- The text of a scalar. -/
def text? : Written → Option String
  | .scalar value _ _ _ _ => some value
  | _ => none

mutual

/-- The events that write the node. -/
def events : Written → List Event
  | .alias name p => [.alias name p]
  | .scalar value style anchor p q => [.scalar value style anchor p q]
  | .sequence flow anchor p items =>
    .sequenceStart flow anchor p :: (eventsOfItems items ++ [.sequenceEnd])
  | .mapping flow anchor p entries =>
    .mappingStart flow anchor p :: (eventsOfEntries entries ++ [.mappingEnd])

@[inherit_doc events] def eventsOfItems : List Written → List Event
  | [] => []
  | w :: rest => w.events ++ eventsOfItems rest

@[inherit_doc events] def eventsOfEntries : List (Written × Written) → List Event
  | [] => []
  | (key, w) :: rest => key.events ++ (w.events ++ eventsOfEntries rest)

end

mutual

/-- The nodes that have been read to their ends, the last first, when the node is read after those
of `earlier`. -/
def readAfter (earlier : List Written) : Written → List Written
  | .alias _ _ => earlier
  | .scalar value style anchor p q => .scalar value style anchor p q :: earlier
  | .sequence flow anchor p items =>
    .sequence flow anchor p items :: itemsReadAfter earlier items
  | .mapping flow anchor p entries =>
    .mapping flow anchor p entries :: entriesReadAfter earlier entries

@[inherit_doc readAfter] def itemsReadAfter (earlier : List Written) : List Written → List Written
  | [] => earlier
  | w :: rest => itemsReadAfter (w.readAfter earlier) rest

@[inherit_doc readAfter] def entriesReadAfter (earlier : List Written) :
    List (Written × Written) → List Written
  | [] => earlier
  | (key, w) :: rest => entriesReadAfter (w.readAfter (key.readAfter earlier)) rest

end

/-- The node that was last read to its end under the name. -/
def lastNamed? (earlier : List Written) (name : String) : Option Written :=
  earlier.find? (·.anchor? == some name)

/-- The node that a node stands for: an alias for another one, any other node for itself. -/
def target? (earlier : List Written) : Written → Option Written
  | .alias name _ => lastNamed? earlier name
  | w => some w

/-- The text that a node gives as a key of a mapping. -/
def keyText? (earlier : List Written) (w : Written) : Option String :=
  (w.target? earlier).bind text?

end Written

/-- What matters of an event. -/
inductive Moment where
  /-- A document begins. -/
  | document (first : Bool) (start : Position)
  /-- A collection begins inside so many others. -/
  | opening (start : Position) (around : Nat)
  /-- A node has been read to its end after those of `earlier`. If it is a key of a mapping, the
  texts of the earlier keys come with it, each with its line. -/
  | reading (w : Written) (earlier : List Written) (keys : Option (List (String × Nat)))
  | documentEnd

mutual

/-- The events that write a node, each with what matters of it. -/
def Written.moments (around : Nat) (earlier : List Written) (keys : Option (List (String × Nat))) :
    Written → List (Event × Moment)
  | .alias name p => [(.alias name p, .reading (.alias name p) earlier keys)]
  | .scalar value style anchor p q =>
    [(.scalar value style anchor p q, .reading (.scalar value style anchor p q) earlier keys)]
  | .sequence flow anchor p items =>
    (.sequenceStart flow anchor p, .opening p around) ::
      (momentsOfItems (around + 1) earlier items ++
        [(.sequenceEnd, .reading (.sequence flow anchor p items)
          (Written.itemsReadAfter earlier items) keys)])
  | .mapping flow anchor p entries =>
    (.mappingStart flow anchor p, .opening p around) ::
      (momentsOfEntries (around + 1) earlier [] entries ++
        [(.mappingEnd, .reading (.mapping flow anchor p entries)
          (Written.entriesReadAfter earlier entries) keys)])

@[inherit_doc Written.moments] def momentsOfItems (around : Nat) (earlier : List Written) :
    List Written → List (Event × Moment)
  | [] => []
  | w :: rest => w.moments around earlier none ++ momentsOfItems around (w.readAfter earlier) rest

@[inherit_doc Written.moments] def momentsOfEntries (around : Nat) (earlier : List Written)
    (keys : List (String × Nat)) : List (Written × Written) → List (Event × Moment)
  | [] => []
  | (key, w) :: rest =>
    key.moments around earlier (some keys) ++
      (w.moments around (key.readAfter earlier) none ++
        momentsOfEntries around (w.readAfter (key.readAfter earlier))
          (((key.keyText? earlier).map (·, key.start.line + 1)).toList ++ keys) rest)

end

/-- The events of some documents, each with the place where it begins. -/
def events : List (Position × Written) → List Event
  | [] => []
  | (p, w) :: rest => .documentStart p :: (w.events ++ .documentEnd :: events rest)

/-- The events of some documents, each with what matters of it. Names have no meaning beyond their
document. -/
def moments (first : Bool) : List (Position × Written) → List (Event × Moment)
  | [] => []
  | (p, w) :: rest =>
    (.documentStart p, .document first p) ::
      (w.moments 0 [] none ++ (.documentEnd, .documentEnd) :: moments false rest)

/-- The event breaks a rule, which is reported as `e`. -/
inductive Moment.Violates : Moment → BuildError → Prop where
  | secondDocument {p : Position} :
      Violates (.document false p) (.secondDocument (p.line + 1) (p.column + 1))
  | tooDeep {p : Position} {around : Nat} : maxNesting ≤ around →
      Violates (.opening p around) (.tooDeep (p.line + 1) (p.column + 1))
  | undefinedAlias {name : String} {p : Position} {earlier : List Written}
      {keys : Option (List (String × Nat))} : Written.lastNamed? earlier name = none →
      Violates (.reading (.alias name p) earlier keys)
        (.undefinedAlias name (p.line + 1) (p.column + 1))
  /-- A key is a collection, or it is an alias for one. -/
  | keyNotScalar {w target : Written} {earlier : List Written} {keys : List (String × Nat)} :
      w.target? earlier = some target → target.isCollection = true →
      Violates (.reading w earlier (some keys))
        (.keyNotScalar (w.start.line + 1) (w.start.column + 1))
  /-- A key has the text of an earlier one. -/
  | duplicateKey {w : Written} {earlier : List Written} {keys : List (String × Nat)} {text : String}
      {first : Nat} : w.keyText? earlier = some text → (text, first) ∈ keys →
      Violates (.reading w earlier (some keys))
        (.duplicateKey text first (w.start.line + 1) (w.start.column + 1))

/-- The first event that breaks a rule is reported as `e`. -/
def FirstViolation (ms : List (Event × Moment)) (e : BuildError) : Prop :=
  ∃ before m after, ms = before ++ m :: after ∧ m.2.Violates e ∧
    ∀ x ∈ before, ∀ e', ¬ x.2.Violates e'

mutual

theorem Written.map_moments (around : Nat) (earlier : List Written)
    (keys : Option (List (String × Nat))) (w : Written) :
    (w.moments around earlier keys).map (·.1) = w.events := by
  cases w with
  | «alias» name p => rfl
  | scalar value style anchor p q => rfl
  | sequence flow anchor p items =>
    rw [Written.moments, Written.events, List.map_cons, List.map_append,
      map_momentsOfItems (around + 1) earlier items]
    rfl
  | mapping flow anchor p entries =>
    rw [Written.moments, Written.events, List.map_cons, List.map_append,
      map_momentsOfEntries (around + 1) earlier [] entries]
    rfl

theorem map_momentsOfItems (around : Nat) (earlier : List Written) (items : List Written) :
    (momentsOfItems around earlier items).map (·.1) = Written.eventsOfItems items := by
  match items with
  | [] => rfl
  | w :: rest =>
    rw [momentsOfItems, Written.eventsOfItems, List.map_append, w.map_moments,
      map_momentsOfItems around (w.readAfter earlier) rest]

theorem map_momentsOfEntries (around : Nat) (earlier : List Written) (keys : List (String × Nat))
    (entries : List (Written × Written)) :
    (momentsOfEntries around earlier keys entries).map (·.1) = Written.eventsOfEntries entries := by
  match entries with
  | [] => rfl
  | (key, w) :: rest =>
    rw [momentsOfEntries, Written.eventsOfEntries, List.map_append, List.map_append,
      key.map_moments, w.map_moments, map_momentsOfEntries around _ _ rest]

end

/-- `moments` leaves the events as they are. -/
theorem map_moments (first : Bool) (documents : List (Position × Written)) :
    (moments first documents).map (·.1) = events documents := by
  induction documents generalizing first with
  | nil => rfl
  | cons d rest ih =>
    obtain ⟨p, w⟩ := d
    rw [moments, events, List.map_cons, List.map_append, List.map_cons, w.map_moments, ih]

end FlowLint.Tree
