import FlowLint.Proofs.Building
import FlowLint.Proofs.Parsing

/-! The table of places of a document that loads. No mapping has a key twice, so the table holds
each pointer of the tree under its place, and each pointer leads back to its node. -/

namespace FlowLint.Tree

theorem eq_ok_of_toOption {ε α : Type} {e : Except ε α} {a : α} (h : e.toOption = some a) :
    e = .ok a := by
  cases e with
  | error e => cases h
  | ok a => cases h; rfl

theorem exists_of_toOption {ε α β : Type} {e : Except ε α} {f : α → β} {b : β}
    (h : e.toOption.map f = some b) : ∃ a, e = .ok a ∧ f a = b := by
  obtain ⟨a, loaded, value⟩ := Option.map_eq_some_iff.mp h
  exact ⟨a, eq_ok_of_toOption loaded, value⟩

theorem load_distinct {text : String} {doc : Document} (h : load text = .ok doc) :
    doc.root.All Node.HasDistinctChildren := (load_isSound h).mono fun _ hm => hm.distinct

/-- The items of a sequence can be numbered: a text with more of them than a number that is read can
count does not fit into any machine. -/
theorem load_isReadable {text : String} {doc : Document} (h : load text = .ok doc)
    (short : text.length < 2 ^ 64) :
    doc.root.All (Node.IsSound (10 ^ Text.Integer.maxDigits)) := by
  refine (load_isSound h).mono fun m hm => hm.mono ?_
  have events := Yaml.Event.length_ofText_le text.toList
  rw [String.length_toList] at events
  have room : 10 ^ 22 ≤ 10 ^ Text.Integer.maxDigits := Nat.pow_le_pow_right (by decide) (by decide)
  omega

/-- In a document that loads, no mapping has a key twice and no two nodes have the same pointer; the
table gives each pointer its place in the order of the text; and each pointer leads back to its
node. The last is said of texts that fit into a machine, since a number of more than 4300 digits,
with which a longer one could number the items of a sequence, is not read. -/
theorem load_table {text : String} {doc : Document} (h : load text = .ok doc) :
    (∀ p o entries, (p, Node.mapping o entries) ∈ doc.root.walk "" →
      (Mapping.keys ⟨o, entries⟩).Nodup) ∧
    doc.pointers.Nodup ∧
    (∀ p i, doc.index? p = some i ↔ doc.pointers[i]? = some p) ∧
    ∀ i p n, (doc.root.walk "")[i]? = some (p, n) →
      doc.orderOf p = i ∧ (text.length < 2 ^ 64 → doc.nodeAt p = .ok (some n)) := by
  have distinct := load_distinct h
  have nodup := Document.nodup_pointers distinct
  refine ⟨fun p o entries hm => ?_, nodup, fun p i => Document.index?_eq_some_iff nodup,
    fun i p n hi => ⟨?_, fun short => ?_⟩⟩
  · obtain ⟨path, at_, -⟩ := Node.mem_walk_iff.mp hm
    exact Node.hasDistinctChildren_mapping.mp (distinct path _ at_)
  · refine Document.orderOf_of_getElem? nodup ?_
    rw [doc.pointers_eq, List.getElem?_map, hi]
    rfl
  · exact Document.nodeAt_of_mem_walk (load_isReadable h short) (List.mem_of_getElem? hi)

/-- Keys with slashes and tildes, an empty key, and a mapping that stands in two places. -/
theorem load_table_escapes : ∃ doc : Document,
    load "a/b: &m\n  ~1: [x, y]\n  \"\": 1\nc~: *m\n" = .ok doc ∧
    doc.pointers = ["", "/a~1b", "/a~1b/~01", "/a~1b/~01/0", "/a~1b/~01/1", "/a~1b/", "/c~0",
      "/c~0/~01", "/c~0/~01/0", "/c~0/~01/1", "/c~0/"] ∧
    doc.pointers.Nodup ∧
    ∀ i p n, (doc.root.walk "")[i]? = some (p, n) →
      doc.orderOf p = i ∧ doc.nodeAt p = .ok (some n) := by
  obtain ⟨doc, loaded, pointers⟩ := exists_of_toOption (show
    (load "a/b: &m\n  ~1: [x, y]\n  \"\": 1\nc~: *m\n").toOption.map (·.pointers) =
      some ["", "/a~1b", "/a~1b/~01", "/a~1b/~01/0", "/a~1b/~01/1", "/a~1b/", "/c~0",
        "/c~0/~01", "/c~0/~01/0", "/c~0/~01/1", "/c~0/"] by decide +kernel)
  obtain ⟨-, nodup, -, found⟩ := load_table loaded
  exact ⟨doc, loaded, pointers, nodup,
    fun i p n hi => ⟨(found i p n hi).1, (found i p n hi).2 (by decide)⟩⟩

end FlowLint.Tree
