import FlowLint.Catalog
import FlowLint.Proofs.Location
import FlowLint.Proofs.OwnNodes
import FlowLint.Proofs.Parsing
import FlowLint.Proofs.Rejection
import FlowLint.Proofs.Table

/-! Anchors and aliases. The nodes that the tree of a text writes itself are, in the order of the
text, those that its events begin, but for keys (`origins_load`). So the rule about anchors has one
finding for each event with a name that belongs to no key (`anchorUsage_exact`). -/

namespace FlowLint.Yaml.Event

/-- The name of the anchor that the event defines, or that it refers to as an alias. -/
def name? : Event → Option String
  | .alias name _ => some name
  | .scalar _ _ anchor _ _ => anchor
  | .sequenceStart _ anchor _ => anchor
  | .mappingStart _ anchor _ => anchor
  | _ => none

def isAlias : Event → Bool
  | .alias _ _ => true
  | _ => false

end FlowLint.Yaml.Event

namespace FlowLint.Tree

open Yaml (Event Position)

/-- How the node is written that begins with the event. -/
def originOf? : Event → Option Origin
  | .alias name p => some (originAt .alias (some name) p)
  | .scalar _ style anchor p _ => some (originAt (.ofScalar style) anchor p)
  | .sequenceStart flow anchor p => some (originAt (.ofFlow flow) anchor p)
  | .mappingStart flow anchor p => some (originAt (.ofFlow flow) anchor p)
  | _ => none

theorem name?_of_originOf? {e : Event} {o : Origin} (h : originOf? e = some o) :
    e.name? = o.anchor ∧ e.isAlias = (o.style == .alias) := by
  cases e with
  | «alias» name p =>
    cases h
    exact ⟨rfl, rfl⟩
  | scalar value style anchor p q =>
    cases h
    refine ⟨rfl, ?_⟩
    cases style <;> rfl
  | sequenceStart flow anchor p | mappingStart flow anchor p =>
    cases h
    exact ⟨rfl, (Builder.style_ofFlow flow anchor p).symm⟩
  | _ => cases h

theorem isSome_originOf? {e : Event} (h : e.name?.isSome = true) : (originOf? e).isSome = true := by
  cases e with
  | «alias» | scalar | sequenceStart | mappingStart => rfl
  | _ => cases h

theorem named_of_mem {events : List Event} {o : Origin} (h : o ∈ events.filterMap originOf?)
    (aliased : o.style = .alias) : o.anchor.isSome = true := by
  obtain ⟨e, -, origin⟩ := List.mem_filterMap.mp h
  obtain ⟨name, isAlias⟩ := name?_of_originOf? origin
  rw [aliased, beq_self_eq_true] at isAlias
  rw [← name]
  cases e with
  | «alias» => rfl
  | _ => cases isAlias

/-- Two lists that give the same values correspond to each other where the second gives one. -/
theorem forall₂_of_map_eq_filterMap {α β γ : Type} {f : α → γ} {g : β → Option γ} {l : List α}
    {l' : List β} (h : l.map f = l'.filterMap g) :
    List.Forall₂ (fun a b => g b = some (f a)) l (l'.filter (g · |>.isSome)) := by
  induction l' generalizing l with
  | nil =>
    rw [List.filterMap_nil, List.map_eq_nil_iff] at h
    rw [h]
    exact .nil
  | cons b rest ih =>
    cases value : g b with
    | none =>
      rw [List.filterMap_cons_none value] at h
      rw [List.filter_cons_of_neg (by simp [value])]
      exact ih h
    | some c =>
      rw [List.filterMap_cons_some value] at h
      rw [List.filter_cons_of_pos (by simp [value])]
      obtain ⟨a, l, rfl, rfl, below⟩ := List.map_eq_cons_iff.mp h
      exact .cons value (ih below)

mutual

/-- The events that write the node, but for those of the keys in it. -/
def Written.valueEvents : Written → List Event
  | .alias name p => [.alias name p]
  | .scalar value style anchor p q => [.scalar value style anchor p q]
  | .sequence flow anchor p items =>
    .sequenceStart flow anchor p :: (valueEventsOfItems items ++ [.sequenceEnd])
  | .mapping flow anchor p entries =>
    .mappingStart flow anchor p :: (valueEventsOfEntries entries ++ [.mappingEnd])

@[inherit_doc Written.valueEvents] def valueEventsOfItems : List Written → List Event
  | [] => []
  | w :: rest => w.valueEvents ++ valueEventsOfItems rest

@[inherit_doc Written.valueEvents] def valueEventsOfEntries :
    List (Written × Written) → List Event
  | [] => []
  | (_, w) :: rest => w.valueEvents ++ valueEventsOfEntries rest

end

/-- The events of some documents, but for those of keys. -/
def valueEvents : List (Position × Written) → List Event
  | [] => []
  | (p, w) :: rest => .documentStart p :: (w.valueEvents ++ .documentEnd :: valueEvents rest)

namespace Builder

variable {lines : List String} {b b' : Builder} {n : Node}

theorem run_append_eq_ok {events later : List Event} (h : run lines b (events ++ later) = .ok b') :
    ∃ b₁, run lines b events = .ok b₁ ∧ run lines b₁ later = .ok b' := by
  rw [run_append] at h
  cases read : run lines b events with
  | error e =>
    rw [read] at h
    cases h
  | ok b₁ =>
    rw [read] at h
    exact ⟨b₁, rfl, h⟩

theorem run_cons_eq_ok {e : Event} {events : List Event} (h : run lines b (e :: events) = .ok b') :
    ∃ b₁, step lines b e = .ok b₁ ∧ run lines b₁ events = .ok b' := by
  rw [← List.singleton_append] at h
  obtain ⟨b₁, first, later⟩ := run_append_eq_ok h
  rw [run_singleton] at first
  exact ⟨b₁, first, later⟩

theorem frames_of_openFrame {p : Position} {f : Frame} (h : b.openFrame p f = .ok b') :
    b'.frames = f :: b.frames := by
  unfold openFrame at h
  split at h
  · cases h
  · cases h
    rfl

/-- The builder `b'` is `b` with a node in its place that is written as the events say. -/
def Puts (b : Builder) (events : List Event) (b' : Builder) : Prop :=
  ∃ (b₁ : Builder) (n : Node), b₁.frames = b.frames ∧ b₁.attach n = .ok b' ∧
    n.ownOrigins = events.filterMap originOf?

theorem puts_finish {b₁ : Builder} {events : List Event} (h : b₁.finish n = .ok b')
    (frames : b₁.frames = b.frames) (same : n.ownOrigins = events.filterMap originOf?) :
    Puts b events b' := by
  rw [finish_eq] at h
  exact ⟨b₁.note n, n, frames, h, same⟩

end Builder

open Builder

variable {lines : List String}

mutual

/-- The builder puts a node into its place that is written as the events of values say. -/
theorem Written.puts (w : Written) {b b' : Builder} (h : run lines b w.events = .ok b') :
    Puts b w.valueEvents b' := by
  cases w with
  | «alias» name p =>
    rw [Written.events, run_singleton, step] at h
    split at h
    · cases h
    next n _ =>
      have aliased : (n.withOrigin (originAt .alias (some name) p)).isAlias = true := by
        rw [Node.isAlias, Node.origin_withOrigin]
        rfl
      refine ⟨b, _, rfl, h, ?_⟩
      rw [Node.ownOrigins_of_isAlias aliased, Node.origin_withOrigin]
      rfl
  | scalar value style anchor p q =>
    rw [Written.events, run_singleton] at h
    exact puts_finish h rfl (Node.ownOrigins_scalar _)
  | sequence flow anchor p items =>
    obtain ⟨opened, hopen, h⟩ := run_cons_eq_ok h
    obtain ⟨closing, hitems, h⟩ := run_append_eq_ok h
    obtain ⟨done, frames, read⟩ := items_put items (frames_of_openFrame hopen) hitems
    rw [run_singleton, step, frames] at h
    have closed : Builder.finish { closing with frames := b.frames }
        (.sequence (originAt (.ofFlow flow) anchor p) done.reverse) = .ok b' := h
    refine puts_finish closed rfl ?_
    have own : (Node.sequence (originAt (.ofFlow flow) anchor p) done.reverse).isAlias = false :=
      style_ofFlow flow anchor p
    rw [Node.ownOrigins_sequence own, read]
    simp [Written.valueEvents, originOf?]
  | mapping flow anchor p entries =>
    obtain ⟨opened, hopen, h⟩ := run_cons_eq_ok h
    obtain ⟨closing, hentries, h⟩ := run_append_eq_ok h
    obtain ⟨done, frames, read⟩ := entries_put entries (frames_of_openFrame hopen) hentries
    rw [run_singleton, step, frames] at h
    have closed : Builder.finish { closing with frames := b.frames }
        (.mapping (originAt (.ofFlow flow) anchor p) done.reverse) = .ok b' := h
    refine puts_finish closed rfl ?_
    have own : (Node.mapping (originAt (.ofFlow flow) anchor p) done.reverse).isAlias = false :=
      style_ofFlow flow anchor p
    rw [Node.ownOrigins_mapping own, read]
    simp [Written.valueEvents, originOf?]

theorem items_put {b b' : Builder} {o : Origin} {done : List Node} {outer : List Frame}
    (items : List Written) (frames : b.frames = .sequence o done :: outer)
    (h : run lines b (Written.eventsOfItems items) = .ok b') :
    ∃ done', b'.frames = .sequence o done' :: outer ∧ done'.reverse.flatMap Node.ownOrigins =
      done.reverse.flatMap Node.ownOrigins ++ (valueEventsOfItems items).filterMap originOf? := by
  match items with
  | [] =>
    cases h
    exact ⟨done, frames, (List.append_nil _).symm⟩
  | w :: rest =>
    obtain ⟨b₁, hw, hrest⟩ := run_append_eq_ok h
    obtain ⟨b₂, n, same, attached, origins⟩ := w.puts hw
    obtain ⟨done', frames', read⟩ := items_put rest (attach_item (same.trans frames) attached) hrest
    refine ⟨done', frames', read.trans ?_⟩
    rw [valueEventsOfItems, List.filterMap_append, ← origins]
    simp

theorem entries_put {b b' : Builder} {o : Origin} {done : List (Scalar × Node)}
    {outer : List Frame} (entries : List (Written × Written))
    (frames : b.frames = .mapping o done none :: outer)
    (h : run lines b (Written.eventsOfEntries entries) = .ok b') :
    ∃ done', b'.frames = .mapping o done' none :: outer ∧
      done'.reverse.flatMap (·.2.ownOrigins) = done.reverse.flatMap (·.2.ownOrigins) ++
        (valueEventsOfEntries entries).filterMap originOf? := by
  match entries with
  | [] =>
    cases h
    exact ⟨done, frames, (List.append_nil _).symm⟩
  | (key, w) :: rest =>
    obtain ⟨b₁, hkey, h⟩ := run_append_eq_ok h
    obtain ⟨b₂, hw, hrest⟩ := run_append_eq_ok h
    obtain ⟨c₁, k, same_key, attached_key, -⟩ := key.puts hkey
    obtain ⟨_, -, frames₁, -⟩ := exists_key_of_attach (same_key.trans frames) attached_key
    obtain ⟨c₂, n, same, attached, origins⟩ := w.puts hw
    obtain ⟨done', frames', read⟩ :=
      entries_put rest (attach_value (same.trans frames₁) attached) hrest
    refine ⟨done', frames', read.trans ?_⟩
    rw [valueEventsOfEntries, List.filterMap_append, ← origins]
    simp

end

/-- The tree of some documents is written as the events of values say. -/
theorem origins_ofEvents {documents : List (Position × Written)} {n : Node}
    (h : Node.ofEvents lines ⟨events documents, none⟩ = .ok n) :
    n = .empty ∧ documents = [] ∨ n.ownOrigins = (valueEvents documents).filterMap originOf? := by
  rw [Node.ofEvents] at h
  split at h
  · cases h
  · cases h
  next b ran _ =>
    cases h
    cases documents with
    | nil =>
      cases ran
      exact .inl ⟨rfl, rfl⟩
    | cons d rest =>
      obtain ⟨p, w⟩ := d
      right
      obtain ⟨b₁, started, ran⟩ := run_cons_eq_ok ran
      cases started
      obtain ⟨b₂, hw, ran⟩ := run_append_eq_ok ran
      obtain ⟨b₃, n, frames, attached, origins⟩ := w.puts hw
      obtain ⟨b₄, ended, ran⟩ := run_cons_eq_ok ran
      cases ended
      simp only [attach, frames] at attached
      cases attached
      cases rest with
      | nil =>
        cases ran
        simp [valueEvents, originOf?, origins, List.filterMap_cons]
      | cons d rest =>
        obtain ⟨b₅, started, -⟩ := run_cons_eq_ok ran
        cases started

/-- The events that are read of a text: none if it consists of blanks. -/
def eventsOf (text : String) : List Event :=
  if Text.allBlank text then [] else (Event.ofText text.toList).events

/-- The events of a text that loads are those of some documents, and its tree is written as those of
values say. -/
theorem origins_load {text : String} {doc : Document} (h : load text = .ok doc) :
    (∃ documents, eventsOf text = events documents) ∧
      ∀ documents, eventsOf text = events documents →
        doc.root = .empty ∧ documents = [] ∨
          doc.root.ownOrigins = (valueEvents documents).filterMap originOf? := by
  unfold load at h
  unfold eventsOf
  split at h
  next blank =>
    cases h
    rw [if_pos blank]
    refine ⟨⟨[], rfl⟩, fun documents none => .inl ⟨rfl, ?_⟩⟩
    cases documents with
    | nil => rfl
    | cons d rest => cases none
  next read =>
    rw [if_neg read]
    obtain ⟨documents, more, written, complete⟩ := Event.ofText_writes text.toList
    cases built : Node.ofEvents (Text.lines text) (Event.ofText text.toList) with
    | error e =>
      rw [built] at h
      cases h
    | ok root =>
      rw [built] at h
      cases h
      have unstopped : (Event.ofText text.toList).fault = none := by
        rw [Node.ofEvents] at built
        split at built
        · cases built
        · cases built
        · assumption
      rw [complete unstopped, List.append_nil] at written
      refine ⟨⟨documents, written⟩, fun documents' same => ?_⟩
      have stream : Event.ofText text.toList = ⟨events documents', none⟩ := by
        rw [← same, ← unstopped]
      rw [stream] at built
      exact origins_ofEvents built

end FlowLint.Tree

namespace FlowLint.Style

open FlowLint.Tree
open FlowLint.Yaml (Event)

/-- The rule about anchors and aliases. -/
def anchorRule : Rule :=
  .total "anchor-usage" .orderingNaming .improvement "No YAML anchors or aliases" anchorUsage

theorem rule?_anchorUsage : Catalog.rule? "anchor-usage" = some anchorRule := by
  rfl

/-- The finding says that there is the anchor or the alias of the event. -/
def Says (doc : Document) (f : Finding) (e : Event) : Prop :=
  ∃ name, e.name? = some name ∧
    f = anchorRule.stamp (.ofDocument doc) (anchorDraft f.location name e.isAlias)

/-- The finding says so of the node that begins with the event. -/
def Reports (doc : Document) (f : Finding) (e : Event) : Prop :=
  Says doc f e ∧ ∃ n, (f.location, n) ∈ doc.root.walk "" ∧ originOf? e = some n.origin

section

variable {doc : Document}

/-- The rule judges the nodes that the document writes itself. -/
theorem findings_anchorRule (distinct : doc.root.All Node.HasDistinctChildren)
    (named : ∀ o ∈ doc.root.ownOrigins, o.style = .alias → o.anchor.isSome = true) (s : Settings) :
    (anchorRule.evaluate (.ofDocument doc) s).findings =
      (doc.root.walkOwn "").filterMap fun x =>
        (nodeDraft? x).map (anchorRule.stamp (.ofDocument doc)) := by
  have named_nodes : ∀ x ∈ doc.root.walkOwn "",
      x.2.isAlias = true → x.2.origin.anchor.isSome = true := fun x hx aliased =>
    named x.2.origin (List.mem_map_of_mem hx) (beq_iff_eq.mp aliased)
  change (anchorUsage (.ofDocument doc) s).map (anchorRule.stamp (.ofDocument doc)) = _
  rw [anchorUsage, Workflow.source_ofDocument, anchorsFrom_walk distinct named_nodes,
    List.map_filterMap]

theorem findings_empty (empty : doc.root = .empty) (s : Settings) :
    (anchorRule.evaluate (.ofDocument doc) s).findings = [] := by
  change (anchorUsage (.ofDocument doc) s).map (anchorRule.stamp (.ofDocument doc)) = _
  rw [anchorUsage, Workflow.source_ofDocument, empty]
  rfl

/-- Each event that has a name is reported by one finding, in the order of the events, if the tree
is written as these events say. -/
theorem forall₂_reports (distinct : doc.root.All Node.HasDistinctChildren) {events : List Event}
    (origins : doc.root.ownOrigins = events.filterMap originOf?) (s : Settings) :
    List.Forall₂ (Reports doc) (anchorRule.evaluate (.ofDocument doc) s).findings
      (events.filter (·.name?.isSome)) := by
  have named : ∀ o ∈ doc.root.ownOrigins, o.style = .alias → o.anchor.isSome = true := by
    rw [origins]
    exact fun o ho => named_of_mem ho
  have named_events : events.filter (·.name?.isSome) =
      (events.filter (originOf? · |>.isSome)).filterMap (Option.guard (·.name?.isSome)) := by
    rw [List.filterMap_eq_filter, List.filter_filter]
    refine List.filter_congr fun e _ => ?_
    cases hasName : e.name?.isSome with
    | false => rfl
    | true => rw [isSome_originOf? hasName, Bool.and_true]
  have nodes := (List.forall₂_and_left _ _).mpr
    ⟨fun x hx => hx, forall₂_of_map_eq_filterMap origins⟩
  rw [findings_anchorRule distinct named, named_events]
  refine List.rel_filterMap ?_ nodes
  rintro ⟨p, n⟩ e ⟨there, origin⟩
  obtain ⟨name, isAlias⟩ := name?_of_originOf? origin
  have walked : (p, n) ∈ doc.root.walk "" := (doc.root.walkOwn_sublist "").subset there
  cases anchor : n.origin.anchor with
  | none =>
    rw [anchor] at name
    simp only [nodeDraft?, anchor, Option.map_none, Option.guard, name]
    exact .none
  | some a =>
    rw [anchor] at name
    simp only [nodeDraft?, anchor, Option.map_some, Option.guard, name]
    refine .some ⟨⟨a, name, ?_⟩, n, walked, origin⟩
    rw [isAlias]
    rfl

/-- No node is reported twice. -/
theorem nodup_findings_anchorRule (distinct : doc.root.All Node.HasDistinctChildren)
    (named : ∀ o ∈ doc.root.ownOrigins, o.style = .alias → o.anchor.isSome = true) (s : Settings) :
    ((anchorRule.evaluate (.ofDocument doc) s).findings.map (·.location)).Nodup := by
  have places : (doc.root.walkOwn "").filterMap (fun x =>
      ((nodeDraft? x).map (anchorRule.stamp (.ofDocument doc))).map (·.location)) =
        ((doc.root.walkOwn "").filter (·.2.origin.anchor.isSome)).map (·.1) := by
    rw [← List.filterMap_eq_filter, List.map_filterMap]
    refine List.filterMap_congr fun x _ => ?_
    cases anchor : x.2.origin.anchor with
    | none => simp [nodeDraft?, Option.guard, anchor]
    | some name =>
      simp only [nodeDraft?, Option.guard, anchor]
      rfl
  rw [findings_anchorRule distinct named, List.map_filterMap, places]
  have nodes := ((doc.root.walkOwn_sublist "").map (·.1)).nodup (Node.nodup_walk distinct "")
  exact (List.Sublist.map _ List.filter_sublist).nodup nodes

end

/-- A text that loads consists of the events of some documents. One finding for each anchor and each
alias among them, in the order of the text, but for those of keys: that is what the rule about
anchors has, with each finding at another node. What an alias stands for is not reported again,
whatever the names and wherever they are used. -/
theorem anchorUsage_exact {text : String} {doc : Document} (h : load text = .ok doc)
    (s : Settings) :
    Catalog.rule? "anchor-usage" = some anchorRule ∧
    (∃ documents, eventsOf text = events documents) ∧
    (∀ documents, eventsOf text = events documents →
      List.Forall₂ (Reports doc) (anchorRule.evaluate (.ofDocument doc) s).findings
        ((valueEvents documents).filter (·.name?.isSome))) ∧
    ((anchorRule.evaluate (.ofDocument doc) s).findings.map (·.location)).Nodup := by
  have distinct := load_distinct h
  obtain ⟨⟨documents, written⟩, read⟩ := origins_load h
  refine ⟨rule?_anchorUsage, ⟨documents, written⟩, fun documents same => ?_, ?_⟩
  · rcases read documents same with ⟨empty, rfl⟩ | origins
    · rw [findings_empty empty]
      exact .nil
    · exact forall₂_reports distinct origins s
  · rcases read documents written with ⟨empty, -⟩ | origins
    · rw [findings_empty empty]
      exact .nil
    · refine nodup_findings_anchorRule distinct ?_ s
      rw [origins]
      exact fun o ho => named_of_mem ho

/-- A name that comes twice, the first time with an anchor below it; a key that is a beginning of
another one, and one with an anchor of its own. -/
def renamedText : String := "a: &x [&y 1]\nab: *x\n&k b: &x 2\nc: *x\n"

theorem anchorUsage_exact_renamed : ∃ doc documents, load renamedText = .ok doc ∧
    eventsOf renamedText = events documents ∧
    (anchorRule.evaluate (.ofDocument doc) {}).findings.map (fun f => (f.location, f.title)) =
      [("/a", "YAML anchor `&x`"), ("/a/0", "YAML anchor `&y`"), ("/ab", "YAML alias `*x`"),
        ("/b", "YAML anchor `&x`"), ("/c", "YAML alias `*x`")] ∧
    List.Forall₂ (Reports doc) (anchorRule.evaluate (.ofDocument doc) {}).findings
      ((valueEvents documents).filter (·.name?.isSome)) := by
  obtain ⟨doc, loaded, found⟩ := exists_of_toOption (show (load renamedText).toOption.map
    (fun doc => (anchorRule.evaluate (.ofDocument doc) {}).findings.map
      fun f => (f.location, f.title)) =
    some [("/a", "YAML anchor `&x`"), ("/a/0", "YAML anchor `&y`"), ("/ab", "YAML alias `*x`"),
      ("/b", "YAML anchor `&x`"), ("/c", "YAML alias `*x`")] by decide +kernel)
  obtain ⟨-, ⟨documents, written⟩, reported, -⟩ := anchorUsage_exact loaded {}
  exact ⟨doc, documents, loaded, written, found, reported documents written⟩

/-- The anchor of a key is not reported: the rule looks at values alone. -/
theorem not_forall_says : ¬ ∀ text doc s, load text = .ok doc →
    List.Forall₂ (Says doc) (anchorRule.evaluate (.ofDocument doc) s).findings
      ((eventsOf text).filter (·.name?.isSome)) := by
  intro all
  obtain ⟨doc, loaded, found⟩ := exists_of_toOption (show (load "&a k: v\n").toOption.map
    (fun doc => (anchorRule.evaluate (.ofDocument doc) {}).findings) = some [] by decide +kernel)
  have named : ((eventsOf "&a k: v\n").filter (·.name?.isSome)).length = 1 := by decide +kernel
  have reported := (all _ doc {} loaded).length_eq
  rw [found, named] at reported
  cases reported

end FlowLint.Style
