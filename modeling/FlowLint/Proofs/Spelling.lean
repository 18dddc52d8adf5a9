import FlowLint.Proofs.Building

/-! The events that spell a tree. `Node.Spells` relates a tree to the events that write it from left
to right; an alias is one event, whatever it stands for. The builder gives back the tree that was
spelled (`ofEvents_spelled`), if its aliases stand for the nodes last completed under their names:
`Node.completed` lists the nodes in the order in which their events end. -/

namespace FlowLint.Tree

open Yaml (Event Position ScalarStyle)

mutual

/-- The events write the tree; `lines` are the lines of the text that they are read from. -/
inductive Node.Spells (lines : List String) : Node → List Event → Prop where
  | «alias» {n : Node} {name : String} {p : Position} :
      n.origin = originAt .alias (some name) p → Node.Spells lines n [.alias name p]
  | scalar (value : String) (style : ScalarStyle) (anchor : Option String)
      (start stop : Position) :
      Node.Spells lines
        (.scalar ⟨value, originAt (.ofScalar style) anchor start, endLine lines stop⟩)
        [.scalar value style anchor start stop]
  | sequence {items : List Node} {events : List Event} (flow : Bool) (anchor : Option String)
      (start : Position) : ItemsSpell lines items events →
      Node.Spells lines (.sequence (originAt (.ofFlow flow) anchor start) items)
        (.sequenceStart flow anchor start :: events ++ [.sequenceEnd])
  | mapping {entries : List (Scalar × Node)} {events : List Event} (flow : Bool)
      (anchor : Option String) (start : Position) : EntriesSpell lines entries events →
      Node.Spells lines (.mapping (originAt (.ofFlow flow) anchor start) entries)
        (.mappingStart flow anchor start :: events ++ [.mappingEnd])

@[inherit_doc Node.Spells]
inductive ItemsSpell (lines : List String) : List Node → List Event → Prop where
  | nil : ItemsSpell lines [] []
  | cons {n : Node} {rest : List Node} {events later : List Event} : n.Spells lines events →
      ItemsSpell lines rest later → ItemsSpell lines (n :: rest) (events ++ later)

@[inherit_doc Node.Spells]
inductive EntriesSpell (lines : List String) : List (Scalar × Node) → List Event → Prop where
  | nil : EntriesSpell lines [] []
  | cons {key : Scalar} {n : Node} {rest : List (Scalar × Node)}
      {keyEvents events later : List Event} : (Node.scalar key).Spells lines keyEvents →
      n.Spells lines events → EntriesSpell lines rest later →
      EntriesSpell lines ((key, n) :: rest) (keyEvents ++ (events ++ later))

end

def Node.isAlias (n : Node) : Bool := n.origin.style == .alias

mutual

/-- How deep collections stand inside one another in the text; what an alias stands for does not
stand there. -/
def Node.nesting : Node → Nat
  | .scalar _ => 0
  | .sequence o items => if o.style == .alias then 0 else nestingItems items + 1
  | .mapping o entries => if o.style == .alias then 0 else nestingEntries entries + 1

@[inherit_doc Node.nesting] def nestingItems : List Node → Nat
  | [] => 0
  | n :: rest => max n.nesting (nestingItems rest)

@[inherit_doc Node.nesting] def nestingEntries : List (Scalar × Node) → Nat
  | [] => 0
  | (_, n) :: rest => max n.nesting (nestingEntries rest)

end

mutual

/-- The nodes of a tree, the keys among them, in the order in which their events end. -/
def Node.completed : Node → List Node
  | .scalar s => [.scalar s]
  | .sequence o items =>
    if o.style == .alias then [.sequence o items] else completedItems items ++ [.sequence o items]
  | .mapping o entries =>
    if o.style == .alias then [.mapping o entries]
    else completedEntries entries ++ [.mapping o entries]

@[inherit_doc Node.completed] def completedItems : List Node → List Node
  | [] => []
  | n :: rest => n.completed ++ completedItems rest

@[inherit_doc Node.completed] def completedEntries : List (Scalar × Node) → List Node
  | [] => []
  | (key, n) :: rest => .scalar key :: (n.completed ++ completedEntries rest)

end

/-- The node last completed under the name; the last of the nodes comes first. -/
def lastNamed? (earlier : List Node) (name : String) : Option Node :=
  earlier.find? fun m => !m.isAlias && m.origin.anchor == some name

/-- If the node is an alias, it stands for the node last completed under its name: it is that node,
written and placed as the alias is. -/
def Node.StandsFor (earlier : List Node) (n : Node) : Prop :=
  n.isAlias = true → ∃ name m, n.origin.anchor = some name ∧ lastNamed? earlier name = some m ∧
    n = m.withOrigin n.origin

/-- Every alias among the nodes stands for the node last completed under its name before it. -/
def AliasesHold (earlier : List Node) : List Node → Prop
  | [] => True
  | n :: rest => n.StandsFor earlier ∧ AliasesHold (n :: earlier) rest

theorem aliasesHold_append {earlier l l' : List Node} :
    AliasesHold earlier (l ++ l') ↔
      AliasesHold earlier l ∧ AliasesHold (l.reverse ++ earlier) l' := by
  induction l generalizing earlier with
  | nil => simp [AliasesHold]
  | cons n rest ih =>
    simp only [List.cons_append, AliasesHold, ih, List.reverse_cons, List.append_assoc,
      List.nil_append, and_assoc]

/-- The nodes that aliases may refer to when some nodes have been completed, the last first. -/
def anchorsOf (earlier : List Node) : List (String × Node) :=
  earlier.filterMap fun m => if m.isAlias then none else m.origin.anchor.map (·, m)

theorem lookup_anchorsOf (earlier : List Node) (name : String) :
    (anchorsOf earlier).lookup name = lastNamed? earlier name := by
  induction earlier with
  | nil => rfl
  | cons m rest ih =>
    rw [anchorsOf] at ih
    rw [anchorsOf, lastNamed?, List.find?_cons, List.filterMap_cons]
    cases aliased : m.isAlias with
    | true => simpa [lastNamed?] using ih
    | false =>
      cases anchored : m.origin.anchor with
      | none => simpa [lastNamed?] using ih
      | some other =>
        by_cases same : name = other
        · subst same
          simp
        · have differ : (name == other) = false := by simpa using same
          have differ' : (some other == some name) = false := by simpa using Ne.symm same
          simp only [Bool.false_eq_true, if_false, Option.map_some, List.lookup_cons, differ,
            Bool.not_false, Bool.true_and, differ']
          exact ih

namespace Builder

variable {lines : List String}

theorem run_append (b : Builder) (events later : List Event) :
    run lines b (events ++ later) = run lines b events >>= fun b' => run lines b' later :=
  List.foldlM_append

theorem run_cons (b : Builder) (e : Event) (events : List Event) :
    run lines b (e :: events) = step lines b e >>= fun b' => run lines b' events :=
  List.foldlM_cons

theorem run_singleton (b : Builder) (e : Event) : run lines b [e] = step lines b e := by
  rw [run_cons]
  cases step lines b e <;> rfl

theorem isAlias_ofScalar (value : String) (style : ScalarStyle) (anchor : Option String)
    (start : Position) (last : Nat) :
    (Node.scalar ⟨value, originAt (.ofScalar style) anchor start, last⟩).isAlias = false := by
  cases style <;> rfl

theorem style_ofFlow (flow : Bool) (anchor : Option String) (start : Position) :
    ((originAt (.ofFlow flow) anchor start).style == Style.alias) = false := by
  cases flow <;> rfl

/-- One event for a whole node: what the node stands for has been completed before. -/
theorem step_alias_eq {b : Builder} {earlier : List Node} {n : Node} {name : String} {p : Position}
    (hb : b.anchors = anchorsOf earlier) (written : n.origin = originAt .alias (some name) p)
    (hold : n.StandsFor earlier) : step lines b (.alias name p) = b.attach n := by
  have aliased : n.isAlias = true := by
    rw [Node.isAlias, written]
    rfl
  obtain ⟨name', m, named, found, same⟩ := hold aliased
  have names : name' = name := by
    rw [written] at named
    exact (Option.some.inj named).symm
  subst names
  rw [step, hb, lookup_anchorsOf, found]
  rw [written] at same
  exact congrArg b.attach same.symm

/-- The builder when the nodes of `done` have been completed after those of `earlier`. -/
def after (b : Builder) (earlier done : List Node) : Builder :=
  { b with anchors := anchorsOf (done.reverse ++ earlier) }

def within (b : Builder) (frames : List Frame) : Builder := { b with frames }

variable {b : Builder} {earlier : List Node} {n : Node} {frames : List Frame}

theorem after_nil (hb : b.anchors = anchorsOf earlier) : b.after earlier [] = b := by
  change { b with anchors := anchorsOf earlier } = b
  rw [← hb]

theorem after_after (b : Builder) (earlier done more : List Node) :
    (b.after earlier done).after (done.reverse ++ earlier) more =
      b.after earlier (done ++ more) := by
  rw [after, after, after, List.reverse_append, List.append_assoc]

theorem after_of_isAlias (hb : b.anchors = anchorsOf earlier) (aliased : n.isAlias = true) :
    b.after earlier [n] = b := by
  have unchanged : anchorsOf (n :: earlier) = anchorsOf earlier := by
    rw [anchorsOf, List.filterMap_cons, aliased]
    rfl
  change { b with anchors := anchorsOf (n :: earlier) } = b
  rw [unchanged, ← hb]

/-- A node that is no alias is finished by noting its anchor and putting it into its place. -/
theorem finish_after (b : Builder) (earlier done : List Node) (own : n.isAlias = false) :
    (b.after earlier done).finish n = (b.after earlier (done ++ [n])).attach n := by
  have noted : anchorsOf (n :: (done.reverse ++ earlier)) =
      (n.origin.anchor.map (·, n)).toList ++ anchorsOf (done.reverse ++ earlier) := by
    rw [anchorsOf, List.filterMap_cons, own]
    cases n.origin.anchor <;> rfl
  rw [after, after, List.reverse_append, List.reverse_singleton, List.singleton_append,
    List.cons_append, noted, finish]
  cases n.origin.anchor <;> rfl

theorem step_start {f : Frame} {p : Position} (room : b.frames.length < maxNesting) :
    b.openFrame p f = .ok (b.within (f :: b.frames)) := if_neg (Nat.not_le.mpr room)

theorem attach_key {o : Origin} {entries : List (Scalar × Node)} {key : Scalar}
    (new : key.value ∉ entries.map (·.1.value)) :
    (b.within (.mapping o entries none :: frames)).attach (.scalar key) =
      .ok (b.within (.mapping o entries (some key) :: frames)) := by
  have absent : entries.find? (·.1.value == key.value) = none := by
    refine List.find?_eq_none.mpr fun e he same => new ?_
    exact List.mem_map.mpr ⟨e, he, by simpa using same⟩
  simp only [attach, within, absent]

end Builder

theorem Node.completed_of_isAlias {n : Node} (h : n.isAlias = true) : n.completed = [n] := by
  cases n with
  | scalar s => rfl
  | sequence o items =>
    rw [completed]
    exact if_pos h
  | mapping o entries =>
    rw [completed]
    exact if_pos h

theorem mem_keys_reverse_append {done entries : List (Scalar × Node)} {key : Scalar} {n : Node}
    (distinct : ((done.reverse ++ (key, n) :: entries).map (·.1.value)).Nodup) :
    key.value ∉ done.map (·.1.value) := by
  rw [List.map_append, List.map_cons, List.nodup_append] at distinct
  intro there
  have before : key.value ∈ done.reverse.map (·.1.value) := by
    rw [List.map_reverse, List.mem_reverse]
    exact there
  exact distinct.2.2 _ before _ List.mem_cons_self rfl

theorem Node.all_distinct_scalar (s : Scalar) : (Node.scalar s).All Node.HasDistinctChildren :=
  Node.all_iff.mpr ⟨List.nodup_nil, nofun⟩

theorem Node.all_distinct_sequence {o : Origin} {items : List Node} :
    (Node.sequence o items).All Node.HasDistinctChildren ↔
      ∀ n ∈ items, n.All Node.HasDistinctChildren := by
  rw [Node.all_iff, and_iff_right (Node.hasDistinctChildren_sequence o items)]
  exact Node.forall_children_sequence

theorem Node.all_distinct_mapping {o : Origin} {entries : List (Scalar × Node)} :
    (Node.mapping o entries).All Node.HasDistinctChildren ↔
      (entries.map (·.1.value)).Nodup ∧ ∀ e ∈ entries, e.2.All Node.HasDistinctChildren := by
  rw [Node.all_iff, Node.hasDistinctChildren_mapping, Mapping.keys]
  exact and_congr_right fun _ => Node.forall_children_mapping

open Builder

variable {lines : List String}

theorem run_step {b b' : Builder} {e : Event} {events : List Event}
    (h : step lines b e = .ok b') : run lines b (e :: events) = run lines b' events := by
  rw [run_cons, h]
  rfl

theorem run_steps {b b' : Builder} {events later : List Event} (h : run lines b events = .ok b') :
    run lines b (events ++ later) = run lines b' later := by
  rw [run_append, h]
  rfl

mutual

/-- The events of a node make the builder note the nodes that they complete, and put the node into
its place. -/
theorem Node.Spells.run {n : Node} {events : List Event} (h : n.Spells lines events) {b : Builder}
    {earlier : List Node} (hb : b.anchors = anchorsOf earlier)
    (distinct : n.All Node.HasDistinctChildren)
    (shallow : b.frames.length + n.nesting ≤ maxNesting)
    (hold : AliasesHold earlier n.completed) :
    run lines b events = (b.after earlier n.completed).attach n := by
  -- The lists of nodes in a collection are read with the nodes before them among the earlier ones.
  cases h with
  | «alias» written =>
    have aliased : n.isAlias = true := by
      rw [Node.isAlias, written]
      rfl
    rw [Node.completed_of_isAlias aliased] at hold ⊢
    rw [run_singleton, step_alias_eq hb written hold.1, after_of_isAlias hb aliased]
  | scalar value style anchor start stop =>
    have finished := finish_after b earlier []
      (isAlias_ofScalar value style anchor start (endLine lines stop))
    rw [after_nil hb] at finished
    rw [run_singleton]
    exact finished
  | @sequence items events flow anchor start spelled =>
    have own := style_ofFlow flow anchor start
    rw [Node.nesting, own, if_neg Bool.false_ne_true] at shallow
    rw [Node.completed, own, if_neg Bool.false_ne_true] at hold ⊢
    obtain ⟨hold, -⟩ := aliasesHold_append.mp hold
    have read := ItemsSpell.run spelled (originAt (.ofFlow flow) anchor start) [] b.frames hb
      (Node.all_distinct_sequence.mp distinct) (by omega) hold
    have opened : step lines b (.sequenceStart flow anchor start) =
        .ok (b.within (.sequence (originAt (.ofFlow flow) anchor start) [] :: b.frames)) :=
      step_start (by omega)
    have closed : (b.after earlier (completedItems items)).finish
        (.sequence (originAt (.ofFlow flow) anchor start) items) = _ :=
      finish_after b earlier (completedItems items) own
    rw [List.cons_append, run_step opened, run_steps read, run_singleton, ← closed, step, within]
    simp only [List.append_nil, List.reverse_reverse]
    rfl
  | @mapping entries events flow anchor start spelled =>
    have own := style_ofFlow flow anchor start
    rw [Node.nesting, own, if_neg Bool.false_ne_true] at shallow
    rw [Node.completed, own, if_neg Bool.false_ne_true] at hold ⊢
    obtain ⟨hold, -⟩ := aliasesHold_append.mp hold
    obtain ⟨keys, entries_distinct⟩ := Node.all_distinct_mapping.mp distinct
    have read := EntriesSpell.run spelled (originAt (.ofFlow flow) anchor start) [] b.frames hb keys
      entries_distinct (by omega) hold
    have opened : step lines b (.mappingStart flow anchor start) =
        .ok (b.within (.mapping (originAt (.ofFlow flow) anchor start) [] none :: b.frames)) :=
      step_start (by omega)
    have closed : (b.after earlier (completedEntries entries)).finish
        (.mapping (originAt (.ofFlow flow) anchor start) entries) = _ :=
      finish_after b earlier (completedEntries entries) own
    rw [List.cons_append, run_step opened, run_steps read, run_singleton, ← closed, step, within]
    simp only [List.append_nil, List.reverse_reverse]
    rfl

theorem ItemsSpell.run {items : List Node} {events : List Event} (h : ItemsSpell lines items events)
    {b : Builder} {earlier : List Node} (o : Origin) (done : List Node) (frames : List Frame)
    (hb : b.anchors = anchorsOf earlier) (distinct : ∀ n ∈ items, n.All Node.HasDistinctChildren)
    (shallow : frames.length + 1 + nestingItems items ≤ maxNesting)
    (hold : AliasesHold earlier (completedItems items)) :
    run lines (b.within (.sequence o done :: frames)) events =
      .ok ((b.after earlier (completedItems items)).within
        (.sequence o (items.reverse ++ done) :: frames)) := by
  cases h with
  | nil =>
    rw [completedItems, after_nil hb]
    rfl
  | @cons n rest events later spelled spelled_rest =>
    obtain ⟨hn, hrest⟩ := List.forall_mem_cons.mp distinct
    rw [nestingItems] at shallow
    rw [completedItems] at hold ⊢
    obtain ⟨hold_n, hold_rest⟩ := aliasesHold_append.mp hold
    have depth : frames.length + 1 + n.nesting ≤ maxNesting := by omega
    have head := Node.Spells.run spelled (b := b.within (.sequence o done :: frames)) hb hn depth
      hold_n
    have tail := ItemsSpell.run spelled_rest (b := b.after earlier n.completed) o (n :: done) frames
      rfl hrest (by omega) hold_rest
    rw [run_steps head]
    refine tail.trans ?_
    rw [after_after, List.reverse_cons, List.append_assoc, List.singleton_append]

theorem EntriesSpell.run {entries : List (Scalar × Node)} {events : List Event}
    (h : EntriesSpell lines entries events) {b : Builder} {earlier : List Node} (o : Origin)
    (done : List (Scalar × Node)) (frames : List Frame) (hb : b.anchors = anchorsOf earlier)
    (keys : ((done.reverse ++ entries).map (·.1.value)).Nodup)
    (distinct : ∀ e ∈ entries, e.2.All Node.HasDistinctChildren)
    (shallow : frames.length + 1 + nestingEntries entries ≤ maxNesting)
    (hold : AliasesHold earlier (completedEntries entries)) :
    run lines (b.within (.mapping o done none :: frames)) events =
      .ok ((b.after earlier (completedEntries entries)).within
        (.mapping o (entries.reverse ++ done) none :: frames)) := by
  cases h with
  | nil =>
    rw [completedEntries, after_nil hb]
    rfl
  | @cons key n rest keyEvents events later spelled_key spelled spelled_rest =>
    obtain ⟨hn, hrest⟩ := List.forall_mem_cons.mp distinct
    rw [nestingEntries] at shallow
    rw [completedEntries] at hold ⊢
    obtain ⟨hold_key, hold_later⟩ := hold
    obtain ⟨hold_n, hold_rest⟩ := aliasesHold_append.mp hold_later
    have room : frames.length + 1 ≤ maxNesting := by omega
    have first := Node.Spells.run spelled_key (b := b.within (.mapping o done none :: frames)) hb
      (Node.all_distinct_scalar key) room ⟨hold_key, trivial⟩
    have put : ((b.within (.mapping o done none :: frames)).after earlier [.scalar key]).attach
        (.scalar key) = _ :=
      attach_key (b := b.after earlier [.scalar key]) (mem_keys_reverse_append keys)
    rw [Node.completed, put] at first
    have depth : frames.length + 1 + n.nesting ≤ maxNesting := by omega
    have noted : (b.after earlier [.scalar key]).anchors = anchorsOf (.scalar key :: earlier) := rfl
    have second := Node.Spells.run spelled
      (b := (b.after earlier [.scalar key]).within (.mapping o done (some key) :: frames)) noted hn
      depth hold_n
    have keys_rest : ((((key, n) :: done).reverse ++ rest).map (·.1.value)).Nodup := by
      rwa [List.reverse_cons, List.append_assoc, List.singleton_append]
    have tail := EntriesSpell.run spelled_rest
      (b := (b.after earlier [.scalar key]).after (.scalar key :: earlier) n.completed) o
      ((key, n) :: done) frames rfl keys_rest hrest (by omega) hold_rest
    have both : b.after earlier (.scalar key :: (n.completed ++ completedEntries rest)) =
        ((b.after earlier [.scalar key]).after (.scalar key :: earlier) n.completed).after
          (n.completed.reverse ++ .scalar key :: earlier) (completedEntries rest) := by
      rw [after_after]
      exact (after_after b earlier [.scalar key] _).symm
    rw [run_steps first, run_steps second, both, List.reverse_cons, List.append_assoc,
      List.singleton_append]
    exact tail

end

/-- The builder gives back the tree that the events of a document spell: no tree is refused whose
mappings have no key twice, whose collections stand at most `maxNesting` deep and whose aliases
stand for the nodes last completed under their names. -/
theorem ofEvents_spelled {t : Node} {events : List Event} (h : t.Spells lines events)
    (distinct : t.All Node.HasDistinctChildren) (shallow : t.nesting ≤ maxNesting)
    (hold : AliasesHold [] t.completed) (p : Position) :
    Node.ofEvents lines ⟨.documentStart p :: (events ++ [.documentEnd]), none⟩ = .ok t := by
  have read := Node.Spells.run h (b := {}) rfl distinct (by simpa using shallow) hold
  have started : step lines {} (.documentStart p) = .ok {} := rfl
  have placed : Builder.attach (Builder.after {} [] t.completed) t =
      .ok { Builder.after {} [] t.completed with root := some t } := rfl
  rw [placed] at read
  rw [Node.ofEvents, run_step started, run_steps read, run_singleton]
  rfl

/-- A text that gives the name of a scalar to a mapping which still refers to the scalar. -/
def renamedLines : List String := ["a: &x 1", "*x : &x", "  b: *x", "c: *x"]

@[inherit_doc renamedLines] def renamed : Node :=
  .mapping ⟨.plain, none, 1, 1⟩
    [(⟨"a", ⟨.plain, none, 1, 1⟩, 1⟩, .scalar ⟨"1", ⟨.plain, some "x", 1, 4⟩, 1⟩),
      (⟨"1", ⟨.alias, some "x", 2, 1⟩, 1⟩, .mapping ⟨.plain, some "x", 2, 6⟩
        [(⟨"b", ⟨.plain, none, 3, 3⟩, 3⟩, .scalar ⟨"1", ⟨.alias, some "x", 3, 6⟩, 1⟩)]),
      (⟨"c", ⟨.plain, none, 4, 1⟩, 4⟩, .mapping ⟨.alias, some "x", 4, 4⟩
        [(⟨"b", ⟨.plain, none, 3, 3⟩, 3⟩, .scalar ⟨"1", ⟨.alias, some "x", 3, 6⟩, 1⟩)])]

@[inherit_doc renamedLines] def renamedEvents : List Event :=
  [.mappingStart false none ⟨0, 0, 0⟩,
    .scalar "a" .plain none ⟨0, 0, 0⟩ ⟨1, 0, 1⟩, .scalar "1" .plain (some "x") ⟨3, 0, 3⟩ ⟨7, 0, 7⟩,
    .alias "x" ⟨8, 1, 0⟩, .mappingStart false (some "x") ⟨13, 1, 5⟩,
    .scalar "b" .plain none ⟨18, 2, 2⟩ ⟨19, 2, 3⟩, .alias "x" ⟨21, 2, 5⟩, .mappingEnd,
    .scalar "c" .plain none ⟨24, 3, 0⟩ ⟨25, 3, 1⟩, .alias "x" ⟨27, 3, 3⟩, .mappingEnd]

theorem ofEvents_renamed : renamed.Spells renamedLines renamedEvents ∧
    renamed.All Node.HasDistinctChildren ∧ renamed.nesting ≤ maxNesting ∧
    AliasesHold [] renamed.completed ∧
    Node.ofEvents renamedLines
      ⟨.documentStart ⟨0, 0, 0⟩ :: (renamedEvents ++ [.documentEnd]), none⟩ = .ok renamed := by
  have key : Node.Spells renamedLines (.scalar ⟨"1", ⟨.alias, some "x", 2, 1⟩, 1⟩)
      [.alias "x" ⟨8, 1, 0⟩] := .alias rfl
  have inner : Node.Spells renamedLines _ _ := .mapping false (some "x") ⟨13, 1, 5⟩
    (.cons (.scalar "b" .plain none ⟨18, 2, 2⟩ ⟨19, 2, 3⟩)
      (.alias (n := .scalar ⟨"1", ⟨.alias, some "x", 3, 6⟩, 1⟩) (p := ⟨21, 2, 5⟩) rfl) .nil)
  have outer : Node.Spells renamedLines _ _ := .mapping false none ⟨0, 0, 0⟩
    (.cons (.scalar "a" .plain none ⟨0, 0, 0⟩ ⟨1, 0, 1⟩)
      (.scalar "1" .plain (some "x") ⟨3, 0, 3⟩ ⟨7, 0, 7⟩)
      (.cons key inner
        (.cons (.scalar "c" .plain none ⟨24, 3, 0⟩ ⟨25, 3, 1⟩)
          (.alias (n := (Node.mapping ⟨.plain, some "x", 2, 6⟩ [(⟨"b", ⟨.plain, none, 3, 3⟩, 3⟩,
            .scalar ⟨"1", ⟨.alias, some "x", 3, 6⟩, 1⟩)]).withOrigin ⟨.alias, some "x", 4, 4⟩)
            (p := ⟨27, 3, 3⟩) rfl) .nil)))
  have spelled : renamed.Spells renamedLines renamedEvents := outer
  have distinct : renamed.All Node.HasDistinctChildren := by
    simp [renamed, Node.all_distinct_mapping, Node.all_distinct_scalar]
  have shallow : renamed.nesting ≤ maxNesting := by decide
  have hold : AliasesHold [] renamed.completed :=
    ⟨nofun, nofun, fun _ => ⟨"x", _, rfl, rfl, rfl⟩, nofun, fun _ => ⟨"x", _, rfl, rfl, rfl⟩,
      nofun, nofun, fun _ => ⟨"x", _, rfl, rfl, rfl⟩, nofun, trivial⟩
  exact ⟨spelled, distinct, shallow, hold,
    ofEvents_spelled spelled distinct shallow hold ⟨0, 0, 0⟩⟩

end FlowLint.Tree
