import FlowLint.Proofs.Independence
import FlowLint.Proofs.Location
import FlowLint.Proofs.Table
import FlowLint.Review

/-! Findings and the tree. Every finding lies at a node of the document or at a child that a node
lacks, and its order is the place of that node; so of two findings of the same severity the one
further up in the tree comes first. -/

namespace FlowLint

open FlowLint.Tree

namespace Tree.Document

variable {doc : Document}

theorem orderOf_of_mem (distinct : doc.pointers.Nodup) {p : String} (h : p ∈ doc.pointers) :
    doc.index? p = some (doc.orderOf p) := by
  obtain ⟨i, hi⟩ := List.mem_iff_getElem?.mp h
  rw [orderOf_of_getElem? distinct hi]
  exact (index?_eq_some_iff distinct).mpr hi

/-- A child of a node is in the table, or the node takes its place. -/
theorem orderOf_of_parent_mem (distinct : doc.pointers.Nodup) {base key : String}
    (h : base ∈ doc.pointers) :
    doc.index? (Pointer.child base key) = some (doc.orderOf (Pointer.child base key)) ∨
      doc.index? (Pointer.child base key) = none ∧
        doc.index? base = some (doc.orderOf (Pointer.child base key)) := by
  by_cases there : Pointer.child base key ∈ doc.pointers
  · exact .inl (orderOf_of_mem distinct there)
  · obtain ⟨i, hi⟩ := List.mem_iff_getElem?.mp h
    rw [orderOf_child distinct hi there]
    exact .inr ⟨index?_eq_none_iff.mpr there, (index?_eq_some_iff distinct).mpr hi⟩

theorem lt_of_mem_behind {α : Type} {l before behind : List α} {x y : α} {i j : Nat}
    (distinct : l.Nodup) (split : l = before ++ x :: behind) (hy : y ∈ behind)
    (hi : l[i]? = some x) (hj : l[j]? = some y) : i < j := by
  obtain ⟨k, hk⟩ := List.mem_iff_getElem?.mp hy
  have at_x : l[before.length]? = some x := by simp [split]
  have at_y : l[before.length + 1 + k]? = some y := by
    rw [split, List.getElem?_append_right (by omega)]
    rwa [show before.length + 1 + k - before.length = k + 1 by omega]
  have hx := (List.getElem?_inj (List.getElem?_eq_some_iff.mp hi).1 distinct).mp
    (hi.trans at_x.symm)
  have hy := (List.getElem?_inj (List.getElem?_eq_some_iff.mp hj).1 distinct).mp
    (hj.trans at_y.symm)
  omega

/-- In the table a node comes before the nodes below it. -/
theorem index_lt_of_below (distinct : doc.pointers.Nodup) {p rest : String} {i j : Nat}
    (hp : doc.index? p = some i) (hq : doc.index? (p ++ "/" ++ rest) = some j) : i < j := by
  rw [index?_eq_some_iff distinct] at hp hq
  obtain ⟨path, -, -, rfl⟩ := mem_pointers_iff.mp (List.mem_of_getElem? hp)
  obtain ⟨path', m, hm, same⟩ := mem_pointers_iff.mp (List.mem_of_getElem? hq)
  -- The path of the lower node begins with that of the upper one.
  have split : path' = path ++ (Text.pieces (· == '/') rest.toList).map Pointer.unescape := by
    have segments := congrArg Pointer.segments same
    rw [Pointer.segments_append_slash, Pointer.segments_descendant,
      Pointer.segments_descendant] at segments
    exact segments.symm
  have some_step : (Text.pieces (· == '/') rest.toList).map Pointer.unescape ≠ [] := by
    simpa using Text.pieces_ne_nil _ _
  generalize (Text.pieces (· == '/') rest.toList).map Pointer.unescape = steps at split some_step
  subst split
  obtain ⟨upper, hupper, hlower⟩ := hm.split
  obtain ⟨before, after, walk⟩ := hupper.walk_infix ""
  rw [upper.walk_eq, List.append_assoc, List.cons_append] at walk
  have pointers := congrArg (List.map (·.1)) walk
  rw [List.map_append, List.map_cons, ← doc.pointers_eq] at pointers
  refine lt_of_mem_behind distinct pointers.symm
    (List.mem_map.mpr ⟨(Pointer.descendant "" (path ++ steps), m), ?_, same.symm⟩) hp hq
  rw [List.mem_append, List.mem_flatMap]
  cases hlower with
  | here => exact absurd rfl some_step
  | down hc hm =>
    refine .inl ⟨_, hc, Node.mem_walk_iff.mpr ⟨_, hm, ?_⟩⟩
    rw [Pointer.descendant_append]
    rfl

end Tree.Document

/-- A finding lies at a node that the workflow shows or at a child of one; its order is its place in
the table, or that of the parent. -/
theorem Workflow.Place.index? {doc : Document} (distinct : doc.pointers.Nodup) {p : String}
    (h : (Workflow.ofDocument doc).Place p) :
    Pointer.IsRooted p ∧
    (doc.index? p = some (doc.orderOf p) ∨
      doc.index? p = none ∧ doc.index? (Pointer.parent p) = some (doc.orderOf p)) := by
  cases h with
  | shown h =>
    have there := h.mem_pointers
    exact ⟨Document.isRooted_of_mem_pointers there, .inl (Document.orderOf_of_mem distinct there)⟩
  | child key h _ =>
    have there := h.mem_pointers
    rw [Pointer.parent_child]
    exact ⟨(Document.isRooted_of_mem_pointers there).child key,
      Document.orderOf_of_parent_mem distinct there⟩

/-- Every finding of a rule lies at a node, or at a key that a node lacks; its order is the place of
that node. -/
theorem Rule.located_of_mem_evaluate {doc : Document} (distinct : doc.pointers.Nodup) {r : Rule}
    (hr : r ∈ Catalog.rules) {s : Settings} {f : Finding}
    (hf : f ∈ (r.evaluate (.ofDocument doc) s).findings) :
    Pointer.IsRooted f.location ∧ ∃ i : Nat, f.order = i ∧
      (doc.index? f.location = some i ∨
        doc.index? f.location = none ∧ doc.index? (Pointer.parent f.location) = some i) := by
  obtain ⟨place, order⟩ := (Catalog.rules_fit r hr).place hf
  rw [Workflow.source_ofDocument] at order
  obtain ⟨rooted, found⟩ := place.index? distinct
  exact ⟨rooted, _, order, found⟩

/-- The order of a reviewed finding that lies at a node is the place of that node. -/
theorem Review.order_of_mem_findings {doc : Document} (distinct : doc.pointers.Nodup)
    {s : Settings} {f : Finding} (hf : f ∈ (Review.ofDocument Catalog.rules s doc).findings)
    (there : f.location ∈ doc.pointers) :
    ∃ i : Nat, f.order = i ∧ doc.index? f.location = some i := by
  obtain ⟨result, hresult, found⟩ := mem_of_mem_merge hf
  obtain ⟨r, hr, rfl⟩ := List.mem_map.mp hresult
  obtain ⟨-, i, hi, at_i | ⟨absent, -⟩⟩ := Rule.located_of_mem_evaluate distinct hr found
  · exact ⟨i, hi, at_i⟩
  · exact absurd there (Document.index?_eq_none_iff.mp absent)

/-- No finding on a document that loads is out of place: its location is a pointer of the tree, or
becomes one without its last segment, and its order is the place of that pointer. Of two findings of
the same severity, of which one lies at a node above that of the other, that one comes first. -/
theorem findings_located {text : String} {doc : Document} (h : load text = .ok doc)
    (s : Settings) :
    (∀ r ∈ Catalog.rules, ∀ f ∈ (r.evaluate (.ofDocument doc) s).findings,
      Pointer.IsRooted f.location ∧ ∃ i : Nat, f.order = i ∧
        (doc.index? f.location = some i ∨
          doc.index? f.location = none ∧ doc.index? (Pointer.parent f.location) = some i)) ∧
    ∀ (i j : Nat) (f g : Finding) (rest : String),
      (Review.ofDocument Catalog.rules s doc).findings[i]? = some f →
      (Review.ofDocument Catalog.rules s doc).findings[j]? = some g →
      f.severity = g.severity → f.location ∈ doc.pointers → g.location ∈ doc.pointers →
      g.location = f.location ++ "/" ++ rest → i < j := by
  have distinct := Document.nodup_pointers (load_distinct h)
  refine ⟨fun r hr f hf => Rule.located_of_mem_evaluate distinct hr hf, ?_⟩
  intro i j f g rest hi hj severity hf hg below
  obtain ⟨m, hm, at_m⟩ := Review.order_of_mem_findings distinct (List.mem_of_getElem? hi) hf
  obtain ⟨n, hn, at_n⟩ := Review.order_of_mem_findings distinct (List.mem_of_getElem? hj) hg
  have lower : m < n := Document.index_lt_of_below distinct at_m (below ▸ at_n)
  have first : f.before g = true := by
    simp only [Finding.before, severity, hm, hn]
    simp [lower]
  exact (inOrder_merge _).lt_of_before Finding.ranks_before hi hj first

/-- A job without permissions and without a time limit: the first finding lies at a key that the
root lacks, the others at nodes, the second above the third. -/
theorem findings_located_job : ∃ doc : Document,
    load "jobs:\n  a:\n    runs-on: x\n    steps:\n      - run: |\n          a\n          b\n" =
      .ok doc ∧
    (Review.ofDocument Catalog.rules {} doc).findings.map
        (fun f => (f.severity, f.location, f.order)) =
      [(.mustFix, "/permissions", 0), (.mustFix, "/jobs/a", 2),
        (.mustFix, "/jobs/a/steps/0/run", 6), (.improvement, "/jobs/a/steps/0", 5)] ∧
    ∀ r ∈ Catalog.rules, ∀ f ∈ (r.evaluate (.ofDocument doc) {}).findings,
      Pointer.IsRooted f.location ∧ ∃ i : Nat, f.order = i ∧
        (doc.index? f.location = some i ∨
          doc.index? f.location = none ∧ doc.index? (Pointer.parent f.location) = some i) := by
  obtain ⟨doc, loaded, found⟩ := exists_of_toOption (show
    (load "jobs:\n  a:\n    runs-on: x\n    steps:\n      - run: |\n          a\n          b\n"
      ).toOption.map (fun doc => (Review.ofDocument Catalog.rules {} doc).findings.map
        fun f => (f.severity, f.location, f.order)) =
      some [(.mustFix, "/permissions", 0), (.mustFix, "/jobs/a", 2),
        (.mustFix, "/jobs/a/steps/0/run", 6), (.improvement, "/jobs/a/steps/0", 5)] by
    decide +kernel)
  exact ⟨doc, loaded, found, (findings_located loaded {}).1⟩

end FlowLint
