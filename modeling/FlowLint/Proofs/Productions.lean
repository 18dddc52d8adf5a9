import FlowLint.Proofs.Written
import FlowLint.Yaml.Event.Grammar

/-! The grammar of events. What a goal stands for is a form (`Goal.form`), and each form is written
by lists of events that the documents define (`Form.Writes`). A step of the parser replaces a form
by others and may find events; `Form.Yields` lists these productions, and each of them is right
(`Form.Yields.writes`). -/

namespace FlowLint.Yaml

open FlowLint.Tree (Written)
open FlowLint.Tree.Written (eventsOfEntries eventsOfItems)

/-- What is still to be written of a text: some documents, the rest of a document that has been
read, a node, or the rest of a collection. -/
inductive Form where
  | documents
  | documentEnd
  | node
  | items
  | entries
  | value
  | pairKey
  | pairValue
  | pairEnd
  deriving DecidableEq, Repr

namespace Form

/-- The events write something of the form. -/
def Writes : Form → List Event → Prop
  | .documents, es => ∃ documents, es = Tree.events documents
  | .documentEnd, es => ∃ documents, es = .documentEnd :: Tree.events documents
  | .node, es => ∃ w : Written, es = w.events
  | .items, es => ∃ items, es = eventsOfItems items ++ [.sequenceEnd]
  | .entries, es => ∃ entries, es = eventsOfEntries entries ++ [.mappingEnd]
  | .value, es => ∃ (w : Written) (entries : _),
      es = w.events ++ (eventsOfEntries entries ++ [.mappingEnd])
  | .pairKey, es => ∃ key w : Written, es = key.events ++ (w.events ++ [.mappingEnd])
  | .pairValue, es => ∃ w : Written, es = w.events ++ [.mappingEnd]
  | .pairEnd, es => es = [.mappingEnd]

/-- The events write something of each form, one after the other. -/
inductive WriteAll : List Form → List Event → Prop where
  | nil : WriteAll [] []
  | cons {f : Form} {forms : List Form} {first later : List Event} :
      f.Writes first → WriteAll forms later → WriteAll (f :: forms) (first ++ later)

/-- Once some events have been found, other forms may take the place of a form. -/
inductive Yields : Form → List Event → List Form → Prop where
  | document (p : Position) : Yields .documents [.documentStart p] [.node, .documentEnd]
  | documentEnd : Yields .documentEnd [.documentEnd] [.documents]
  | content : Yields .node [] [.node]
  | alias (name : String) (p : Position) : Yields .node [.alias name p] []
  | scalar (value : String) (style : ScalarStyle) (anchor : Option String) (p q : Position) :
      Yields .node [.scalar value style anchor p q] []
  | sequence (flow : Bool) (anchor : Option String) (p : Position) :
      Yields .node [.sequenceStart flow anchor p] [.items]
  | mapping (flow : Bool) (anchor : Option String) (p : Position) :
      Yields .node [.mappingStart flow anchor p] [.entries]
  | item : Yields .items [] [.node, .items]
  | pair (p : Position) : Yields .items [.mappingStart true none p] [.pairKey, .items]
  | sequenceEnd : Yields .items [.sequenceEnd] []
  | key : Yields .entries [] [.node, .value]
  | mappingEnd : Yields .entries [.mappingEnd] []
  | value : Yields .value [] [.node, .entries]
  | pairKey : Yields .pairKey [] [.node, .pairValue]
  | pairValue : Yields .pairValue [] [.node, .pairEnd]
  | pairEnd : Yields .pairEnd [.mappingEnd] []
  /-- Where a node is expected there may be none. -/
  | empty {f : Form} {forms : List Form} (p : Position) : Yields f [] (.node :: forms) →
      Yields f [.scalar "" .plain none p p] forms

namespace WriteAll

theorem nil_iff {es : List Event} : WriteAll [] es ↔ es = [] := by
  constructor
  · rintro ⟨⟩
    rfl
  · rintro rfl
    exact .nil

theorem cons_iff {f : Form} {forms : List Form} {es : List Event} :
    WriteAll (f :: forms) es ↔
      ∃ first later, es = first ++ later ∧ f.Writes first ∧ WriteAll forms later := by
  constructor
  · rintro (_ | ⟨first, later⟩)
    exact ⟨_, _, rfl, first, later⟩
  · rintro ⟨first, later, rfl, hfirst, hlater⟩
    exact .cons hfirst hlater

theorem split {forms forms' : List Form} {es : List Event} (h : WriteAll (forms ++ forms') es) :
    ∃ first later, es = first ++ later ∧ WriteAll forms first ∧ WriteAll forms' later := by
  induction forms generalizing es with
  | nil => exact ⟨[], es, rfl, .nil, h⟩
  | cons f rest ih =>
    obtain ⟨first, later, rfl, hf, h⟩ := cons_iff.mp h
    obtain ⟨middle, last, rfl, hrest, hlast⟩ := ih h
    exact ⟨first ++ middle, last, (List.append_assoc ..).symm, .cons hf hrest, hlast⟩

theorem singleton_iff {f : Form} {es : List Event} : WriteAll [f] es ↔ f.Writes es := by
  simp [cons_iff, nil_iff]

theorem pair_iff {f g : Form} {es : List Event} :
    WriteAll [f, g] es ↔ ∃ first later, es = first ++ later ∧ f.Writes first ∧ g.Writes later := by
  rw [cons_iff]
  simp only [singleton_iff]

end WriteAll

theorem Yields.length_le {f : Form} {found : List Event} {forms : List Form}
    (h : f.Yields found forms) : found.length ≤ 1 := by
  cases h <;> simp

/-- What the forms of a production write, behind the events that were found, is of the form that
they take the place of. -/
theorem Yields.writes {f : Form} {found later : List Event} {forms : List Form}
    (h : f.Yields found forms) (rest : WriteAll forms later) : f.Writes (found ++ later) := by
  induction h generalizing later with
  | document p =>
    obtain ⟨_, _, rfl, ⟨w, rfl⟩, documents, rfl⟩ := WriteAll.pair_iff.mp rest
    exact ⟨(p, w) :: documents, rfl⟩
  | documentEnd =>
    obtain ⟨documents, rfl⟩ := WriteAll.singleton_iff.mp rest
    exact ⟨documents, rfl⟩
  | content => exact WriteAll.singleton_iff.mp rest
  | «alias» name p =>
    obtain rfl := WriteAll.nil_iff.mp rest
    exact ⟨.alias name p, rfl⟩
  | scalar value style anchor p q =>
    obtain rfl := WriteAll.nil_iff.mp rest
    exact ⟨.scalar value style anchor p q, rfl⟩
  | sequence flow anchor p =>
    obtain ⟨items, rfl⟩ := WriteAll.singleton_iff.mp rest
    exact ⟨.sequence flow anchor p items, rfl⟩
  | mapping flow anchor p =>
    obtain ⟨entries, rfl⟩ := WriteAll.singleton_iff.mp rest
    exact ⟨.mapping flow anchor p entries, rfl⟩
  | item =>
    obtain ⟨_, _, rfl, ⟨w, rfl⟩, items, rfl⟩ := WriteAll.pair_iff.mp rest
    refine ⟨w :: items, ?_⟩
    simp [eventsOfItems]
  | pair p =>
    obtain ⟨_, _, rfl, ⟨key, w, rfl⟩, items, rfl⟩ := WriteAll.pair_iff.mp rest
    refine ⟨.mapping true none p [(key, w)] :: items, ?_⟩
    simp [eventsOfItems, Written.events, eventsOfEntries]
  | sequenceEnd =>
    obtain rfl := WriteAll.nil_iff.mp rest
    exact ⟨[], rfl⟩
  | key =>
    obtain ⟨_, _, rfl, ⟨key, rfl⟩, w, entries, rfl⟩ := WriteAll.pair_iff.mp rest
    refine ⟨(key, w) :: entries, ?_⟩
    simp [eventsOfEntries]
  | mappingEnd =>
    obtain rfl := WriteAll.nil_iff.mp rest
    exact ⟨[], rfl⟩
  | value =>
    obtain ⟨_, _, rfl, ⟨w, rfl⟩, entries, rfl⟩ := WriteAll.pair_iff.mp rest
    exact ⟨w, entries, rfl⟩
  | pairKey =>
    obtain ⟨_, _, rfl, ⟨key, rfl⟩, w, rfl⟩ := WriteAll.pair_iff.mp rest
    exact ⟨key, w, rfl⟩
  | pairValue =>
    obtain ⟨_, _, rfl, ⟨w, rfl⟩, rfl⟩ := WriteAll.pair_iff.mp rest
    exact ⟨w, rfl⟩
  | pairEnd =>
    obtain rfl := WriteAll.nil_iff.mp rest
    rfl
  | empty p _ ih =>
    have absent : Form.node.Writes [.scalar "" .plain none p p] := ⟨.scalar "" .plain none p p, rfl⟩
    exact ih (.cons absent rest)

/-- Each form can be written. -/
theorem exists_writes (f : Form) : ∃ es, f.Writes es := by
  have node : (node).Writes [.alias "" default] := ⟨.alias "" default, rfl⟩
  cases f with
  | documents => exact ⟨_, [], rfl⟩
  | documentEnd => exact ⟨_, [], rfl⟩
  | node => exact ⟨_, node⟩
  | items => exact ⟨_, [], rfl⟩
  | entries => exact ⟨_, [], rfl⟩
  | value => exact ⟨_, .alias "" default, [], rfl⟩
  | pairKey => exact ⟨_, .alias "" default, .alias "" default, rfl⟩
  | pairValue => exact ⟨_, .alias "" default, rfl⟩
  | pairEnd => exact ⟨_, rfl⟩

theorem exists_writeAll (forms : List Form) : ∃ es, WriteAll forms es := by
  induction forms with
  | nil => exact ⟨[], .nil⟩
  | cons f rest ih =>
    obtain ⟨first, hfirst⟩ := f.exists_writes
    obtain ⟨later, hlater⟩ := ih
    exact ⟨first ++ later, .cons hfirst hlater⟩

/-- What can stand inside a document. -/
def IsInner : Form → Prop
  | .documents | .documentEnd => False
  | _ => True

/-- Only the last form is about whole documents. -/
def Nested (forms : List Form) : Prop := ∀ f ∈ forms.dropLast, f.IsInner

/-- Nothing comes behind the documents. -/
theorem Nested.last_documents {forms : List Form} (h : Nested (.documents :: forms)) :
    forms = [] := by
  cases forms with
  | nil => rfl
  | cons g rest => exact (h .documents (by simp)).elim

theorem Yields.inner {f : Form} {found : List Event} {forms : List Form}
    (h : f.Yields found forms) (inner : f.IsInner) : ∀ g ∈ forms, g.IsInner := by
  induction h with
  | document | documentEnd => exact inner.elim
  | empty p _ ih => exact fun g hg => ih inner g (.tail _ hg)
  | _ => simp [IsInner]

theorem Yields.nested {f : Form} {found : List Event} {forms rest : List Form}
    (h : f.Yields found forms) (nested : Nested (f :: rest)) : Nested (forms ++ rest) := by
  cases rest with
  | nil =>
    rw [List.append_nil]
    cases f with
    | documents =>
      cases h with
      | document => simp [Nested, IsInner]
      | empty p h => cases h
    | documentEnd =>
      cases h with
      | documentEnd => simp [Nested]
      | empty p h => cases h
    | _ => exact fun g hg => h.inner trivial g (List.dropLast_subset _ hg)
  | cons g rest =>
    rw [Nested, List.dropLast_cons_of_ne_nil (by simp)] at nested
    obtain ⟨inner, others⟩ := List.forall_mem_cons.mp nested
    rw [Nested, List.dropLast_append_of_ne_nil (by simp)]
    exact List.forall_mem_append.mpr ⟨h.inner inner, others⟩

end Form

/-- What a goal stands for. -/
def Goal.form : Goal → Form
  | .document _ => .documents
  | .content => .node
  | .documentEnd => .documentEnd
  | .node _ _ => .node
  | .sequenceEntry _ => .items
  | .indentlessEntry => .items
  | .mappingKey _ => .entries
  | .mappingValue _ => .value
  | .flowEntry _ _ => .items
  | .pairKey _ => .pairKey
  | .pairValue => .pairValue
  | .pairEnd => .pairEnd
  | .flowKey _ _ => .entries
  | .flowValue _ => .value
  | .flowEmptyValue _ => .value

end FlowLint.Yaml
