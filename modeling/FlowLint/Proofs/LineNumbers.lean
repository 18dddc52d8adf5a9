import FlowLint.Proofs.Comments
import FlowLint.Proofs.Spelling

/-! The lines on which the nodes of a tree begin. A node takes its line from the place of an event,
so it begins in the row of the text with that number; the lines of the document count rows as long
as no other character ends a line (`Tree.line_of_row`). -/

namespace FlowLint.Tree

open Yaml (Event EvenUpTo InRow Position Row placeBehind rows)
open Yaml.Cursor (Invariant)

variable {P : Position → Prop}

/-- A node begins at such a place. -/
def Origin.StandsAt (P : Position → Prop) (o : Origin) : Prop :=
  ∃ p, P p ∧ o.line = p.line + 1 ∧ o.column = p.column + 1

/-- The origins of a node and of its keys. -/
def Node.origins (n : Node) : List Origin :=
  n.origin :: (n.mapping?.map fun m => m.entries.map (·.1.origin)).getD []

/-- The node and its keys begin at such places. -/
def Node.Stands (P : Position → Prop) (n : Node) : Prop :=
  ∀ o ∈ n.origins, o.StandsAt P

/-- What has been read of an open collection begins at such places. -/
def Frame.Stands (P : Position → Prop) : Frame → Prop
  | .sequence o items => o.StandsAt P ∧ ∀ n ∈ items, n.All (Node.Stands P)
  | .mapping o entries key =>
    o.StandsAt P ∧ (∀ e ∈ entries, e.1.origin.StandsAt P ∧ e.2.All (Node.Stands P)) ∧
      ∀ k ∈ key, k.origin.StandsAt P

namespace Node

theorem all_stands_scalar {s : Scalar} (h : s.origin.StandsAt P) :
    (Node.scalar s).All (Stands P) :=
  all_iff.mpr ⟨List.forall_mem_singleton.mpr h, nofun⟩

theorem all_stands_sequence {o : Origin} {items : List Node} (ho : o.StandsAt P)
    (h : ∀ n ∈ items, n.All (Stands P)) : (Node.sequence o items).All (Stands P) :=
  all_iff.mpr ⟨List.forall_mem_singleton.mpr ho, forall_children_sequence.mpr h⟩

theorem all_stands_mapping {o : Origin} {entries : List (Scalar × Node)} (ho : o.StandsAt P)
    (h : ∀ e ∈ entries, e.1.origin.StandsAt P ∧ e.2.All (Stands P)) :
    (Node.mapping o entries).All (Stands P) := by
  refine all_iff.mpr ⟨List.forall_mem_cons.mpr ⟨ho, ?_⟩, ?_⟩
  · exact List.forall_mem_map.mpr fun e he => (h e he).1
  · exact forall_children_mapping.mpr fun e he => (h e he).2

theorem All.stands_withOrigin {n : Node} {o : Origin} (ho : o.StandsAt P) (h : n.All (Stands P)) :
    (n.withOrigin o).All (Stands P) := by
  obtain ⟨here, below⟩ := all_iff.mp h
  refine all_iff.mpr ⟨?_, by rwa [children_withOrigin]⟩
  obtain ⟨-, keys⟩ := List.forall_mem_cons.mp here
  cases n with
  | scalar s | sequence _ items => exact List.forall_mem_singleton.mpr ho
  | mapping _ entries => exact List.forall_mem_cons.mpr ⟨ho, keys⟩

end Node

namespace Builder

/-- Whatever the builder keeps begins at such places. -/
structure Stands (P : Position → Prop) (b : Builder) : Prop where
  frames : ∀ f ∈ b.frames, f.Stands P
  anchors : ∀ a ∈ b.anchors, a.2.All (Node.Stands P)
  root : ∀ n, b.root = some n → n.All (Node.Stands P)

theorem stands_empty : Stands P {} := ⟨nofun, nofun, nofun⟩

variable {b b' : Builder} {n : Node}

theorem attach_stands (hb : b.Stands P) (hn : n.All (Node.Stands P)) (h : b.attach n = .ok b') :
    b'.Stands P := by
  have framed : ∀ {f f' : Frame} {outer : List Frame}, b.frames = f :: outer → f'.Stands P →
      Stands P { b with frames := f' :: outer } := by
    intro f f' outer innermost hf'
    have frames := hb.frames
    rw [innermost] at frames
    exact ⟨List.forall_mem_cons.mpr ⟨hf', (List.forall_mem_cons.mp frames).2⟩, hb.anchors, hb.root⟩
  unfold attach at h
  split at h
  next none =>
    cases h
    refine ⟨hb.frames, hb.anchors, fun m hm => ?_⟩
    cases hm
    exact hn
  next o items outer innermost =>
    cases h
    obtain ⟨ho, held⟩ := hb.frames _ (innermost ▸ List.mem_cons_self)
    exact framed innermost ⟨ho, List.forall_mem_cons.mpr ⟨hn, held⟩⟩
  next o entries key outer innermost =>
    cases h
    obtain ⟨ho, held, hkey⟩ := hb.frames _ (innermost ▸ List.mem_cons_self)
    exact framed innermost ⟨ho, List.forall_mem_cons.mpr ⟨⟨hkey key rfl, hn⟩, held⟩, nofun⟩
  next o entries outer innermost =>
    obtain ⟨ho, held, -⟩ := hb.frames _ (innermost ▸ List.mem_cons_self)
    split at h
    next key =>
      split at h
      · cases h
      · cases h
        have hkey : key.origin.StandsAt P := (Node.all_iff.mp hn).1 _ List.mem_cons_self
        refine framed innermost ⟨ho, held, ?_⟩
        rintro _ ⟨⟩
        exact hkey
    · cases h

theorem finish_stands (hb : b.Stands P) (hn : n.All (Node.Stands P)) (h : b.finish n = .ok b') :
    b'.Stands P := by
  cases anchored : n.origin.anchor with
  | none =>
    simp only [finish, anchored] at h
    exact attach_stands hb hn h
  | some name =>
    simp only [finish, anchored] at h
    have grown : Stands P { b with anchors := (name, n) :: b.anchors } :=
      ⟨hb.frames, List.forall_mem_cons.mpr ⟨hn, hb.anchors⟩, hb.root⟩
    exact attach_stands grown hn h

theorem openFrame_stands {p : Position} {f : Frame} (hb : b.Stands P) (hf : f.Stands P)
    (h : b.openFrame p f = .ok b') : b'.Stands P := by
  unfold openFrame at h
  split at h
  · cases h
  · cases h
    exact ⟨List.forall_mem_cons.mpr ⟨hf, hb.frames⟩, hb.anchors, hb.root⟩

theorem Stands.close {f : Frame} {outer : List Frame} (hb : b.Stands P)
    (innermost : b.frames = f :: outer) : f.Stands P ∧ Stands P { b with frames := outer } := by
  have frames := hb.frames
  rw [innermost] at frames
  obtain ⟨hf, others⟩ := List.forall_mem_cons.mp frames
  exact ⟨hf, others, hb.anchors, hb.root⟩

/-- An event that begins at such a place keeps it so. -/
theorem step_stands {lines : List String} {e : Event} (hb : b.Stands P) (begins : e.Begins P)
    (h : step lines b e = .ok b') : b'.Stands P := by
  have at_place (style : Style) (anchor : Option String) {p : Position} (hp : P p) :
      (originAt style anchor p).StandsAt P := ⟨p, hp, rfl, rfl⟩
  cases e with
  | documentStart p =>
    rw [step] at h
    split at h
    · cases h
    · cases h
      exact hb
  | documentEnd =>
    cases h
    exact hb
  | «alias» name p =>
    rw [step] at h
    split at h
    · cases h
    next m found =>
      obtain ⟨before, after, split, -⟩ := List.lookup_eq_some_iff.mp found
      have named := hb.anchors (name, m) (by rw [split]; simp)
      exact attach_stands hb (named.stands_withOrigin (at_place _ _ begins)) h
  | scalar value style anchor start stop =>
    exact finish_stands hb (Node.all_stands_scalar (at_place _ _ begins)) h
  | sequenceStart flow anchor start =>
    have opened : Frame.Stands P (.sequence (originAt (.ofFlow flow) anchor start) []) :=
      ⟨at_place _ _ begins, nofun⟩
    exact openFrame_stands hb opened h
  | mappingStart flow anchor start =>
    have opened : Frame.Stands P (.mapping (originAt (.ofFlow flow) anchor start) [] none) :=
      ⟨at_place _ _ begins, nofun, nofun⟩
    exact openFrame_stands hb opened h
  | sequenceEnd =>
    rw [step] at h
    split at h
    next o items outer innermost =>
      obtain ⟨⟨ho, held⟩, rest⟩ := hb.close innermost
      exact finish_stands rest
        (Node.all_stands_sequence ho fun n hn => held n (List.mem_reverse.mp hn)) h
    · cases h
      exact hb
  | mappingEnd =>
    rw [step] at h
    split at h
    next o entries key outer innermost =>
      obtain ⟨⟨ho, held, -⟩, rest⟩ := hb.close innermost
      exact finish_stands rest
        (Node.all_stands_mapping ho fun e he => held e (List.mem_reverse.mp he)) h
    · cases h
      exact hb

theorem run_stands {lines : List String} {events : List Event} (hb : b.Stands P)
    (begin : ∀ e ∈ events, e.Begins P) (h : run lines b events = .ok b') : b'.Stands P := by
  induction events generalizing b with
  | nil =>
    cases h
    exact hb
  | cons e rest ih =>
    obtain ⟨first, others⟩ := List.forall_mem_cons.mp begin
    rw [run_cons] at h
    cases stepped : step lines b e with
    | error fault =>
      rw [stepped] at h
      cases h
    | ok b₁ =>
      rw [stepped] at h
      exact ih (step_stands hb first stepped) others h

end Builder

/-- The nodes of a document and their keys begin behind characters of its text, unless the document
is empty. -/
theorem stands_load {text : String} {doc : Document} (loaded : load text = .ok doc) :
    doc.root = .empty ∨ doc.root.All (Node.Stands (Invariant.ofText text.toList).IsPlace) := by
  unfold load at loaded
  split at loaded
  · cases loaded
    exact .inl rfl
  · unfold Node.ofEvents at loaded
    split at loaded
    · cases loaded
    · cases loaded
    next b built _ =>
      cases loaded
      have stands := Builder.run_stands Builder.stands_empty
        (Event.begins_ofText text.toList) built
      cases hr : b.root with
      | none => exact .inl rfl
      | some n => exact .inr (stands.root n hr)

/-- Unless the document is empty, each node and each key begins behind some characters of the text,
in the row whose number is its line. That row is the line of the document with this number as long
as no character up to its end ends a line but those that end rows; the empty row behind the last end
of a row is no line. -/
theorem line_of_row {text : String} {doc : Document} (loaded : load text = .ok doc) :
    doc.root = .empty ∨ ∀ pointer n, (pointer, n) ∈ doc.root.walk "" → ∀ o ∈ n.origins,
      ∃ count k row, InRow text.toList count k row ∧ o.line = k + 1 ∧
        o.column = (placeBehind text.toList count).column + 1 ∧
        (EvenUpTo text.toList k → row.chars ≠ [] →
          doc.lines[o.line - 1]? = some (.ofList row.text)) := by
  refine (stands_load loaded).imp id fun stands pointer n among o ho => ?_
  obtain ⟨path, below, -⟩ := Node.mem_walk_iff.mp among
  obtain ⟨p, placed, line, column⟩ := stands path n below o ho
  obtain ⟨count, short, rfl⟩ := Invariant.exists_placeBehind placed
  obtain ⟨row, inRow⟩ := Yaml.exists_inRow short
  refine ⟨count, _, row, inRow, line, column, fun even some_left => ?_⟩
  have same := (Yaml.getElem?_lineList inRow.getElem? even).resolve_right fun last =>
    some_left last.1
  rw [line, Nat.add_sub_cancel, doc.lines_eq, text_of_load loaded, Text.lines, List.getElem?_map,
    same]
  rfl

/-- Rows that end in three ways. -/
def threeRowText : String := "a: b\rc: d\r\ne: f # g\n"

theorem line_of_row_three : ∃ doc, load threeRowText = .ok doc ∧
    ∃ n, ("/e", n) ∈ doc.root.walk "" ∧ n.origin.line = 3 ∧
      doc.lines[n.origin.line - 1]? = some "e: f # g" := by
  obtain ⟨doc, loaded, found⟩ := exists_of_toOption (show (load threeRowText).toOption.map
    (fun doc => ((doc.root.walk "").lookup "/e").map (·.origin.line)) = some (some 3) by
      decide +kernel)
  obtain ⟨n, named, line⟩ := Option.map_eq_some_iff.mp found
  obtain ⟨before, after, split, -⟩ := List.lookup_eq_some_iff.mp named
  have among : ("/e", n) ∈ doc.root.walk "" := by
    rw [split]
    simp
  refine ⟨doc, loaded, n, among, line, ?_⟩
  rcases line_of_row loaded with empty | all
  · rw [empty] at named
    cases named
  · obtain ⟨count, k, row, inRow, number, -, same⟩ := all "/e" n among n.origin List.mem_cons_self
    obtain rfl : k = 2 := by omega
    have third : ((rows threeRowText.toList)[2]?).map Row.text = some "e: f # g".toList := by
      decide +kernel
    have even : ((rows threeRowText.toList).take 3).all
        (·.text.all fun c => !Yaml.endsLineOnly c) = true := by decide +kernel
    rw [inRow.getElem?] at third
    have text : row.text = "e: f # g".toList := Option.some.inj third
    rw [same ?_ ?_, text]
    · rfl
    · simpa [EvenUpTo] using even
    · simp [Row.chars, text]

/-- A line separator stands in the comment before the mapping. -/
def separatedText : String := "# x\u2028# y\na: b # reviewed\n"

theorem not_forall_line_of_row : ¬ ∀ text doc, load text = .ok doc →
    ∀ pointer n, (pointer, n) ∈ doc.root.walk "" →
    ∀ row, (rows text.toList)[n.origin.line - 1]? = some row → row.chars ≠ [] →
      doc.lines[n.origin.line - 1]? = some (.ofList row.text) := by
  intro all
  obtain ⟨doc, loaded, found⟩ := exists_of_toOption (show (load separatedText).toOption.map
    (fun doc => (doc.root.origin.line, doc.lines[1]?)) = some (2, some "# y") by decide +kernel)
  obtain ⟨line, second⟩ := Prod.mk.inj found
  have row : ((rows separatedText.toList)[1]?).map Row.text = some "a: b # reviewed".toList := by
    decide +kernel
  obtain ⟨row, there, text⟩ := Option.map_eq_some_iff.mp row
  have same := all _ doc loaded "" doc.root (Node.mem_walk_self doc.root "") row
  rw [line] at same
  have other := same there (by simp [Row.chars, text])
  rw [second, text] at other
  exact absurd (Option.some.inj other) (by decide)

end FlowLint.Tree
