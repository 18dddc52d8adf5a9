import FlowLint.Proofs.Spelling
import FlowLint.Proofs.Within
import FlowLint.Rule.Style

/-! The nodes that a document writes itself. `Node.walkOwn` is `Node.walk` without what stands below
aliases. The rule about anchors tells what to pass over by the pointers of the aliases before it,
which comes to the same if no mapping has a key twice (`anchorsFrom_walk`): then the aliases before
a node that is no copy stand apart from it. -/

namespace FlowLint.Tree

mutual

/-- The nodes of a tree with their pointers, in the order of the text, but for those below aliases:
these are copies. -/
def Node.walkOwn (pointer : String) : Node → List (String × Node)
  | .scalar s => [(pointer, .scalar s)]
  | .sequence o items =>
    (pointer, .sequence o items) ::
      if o.style == .alias then [] else walkOwnItems pointer 0 items
  | .mapping o entries =>
    (pointer, .mapping o entries) ::
      if o.style == .alias then [] else walkOwnEntries pointer entries

@[inherit_doc Node.walkOwn] def walkOwnItems (pointer : String) (first : Nat) :
    List Node → List (String × Node)
  | [] => []
  | n :: rest => n.walkOwn (Pointer.item pointer first) ++ walkOwnItems pointer (first + 1) rest

@[inherit_doc Node.walkOwn] def walkOwnEntries (pointer : String) :
    List (Scalar × Node) → List (String × Node)
  | [] => []
  | (key, n) :: rest => n.walkOwn (Pointer.child pointer key.value) ++ walkOwnEntries pointer rest

end

namespace Node

theorem walkOwnItems_eq (p : String) (first : Nat) (items : List Node) :
    walkOwnItems p first items =
      (items.zipIdx first).flatMap fun x => x.1.walkOwn (Pointer.child p (toString x.2)) := by
  induction items generalizing first with
  | nil => rfl
  | cons n rest ih => rw [walkOwnItems, ih]; rfl

theorem walkOwnEntries_eq (p : String) (entries : List (Scalar × Node)) :
    walkOwnEntries p entries =
      entries.flatMap fun e => e.2.walkOwn (Pointer.child p e.1.value) := by
  induction entries with
  | nil => rfl
  | cons e rest ih => rw [walkOwnEntries, ih]; rfl

theorem walkOwn_eq (n : Node) (p : String) :
    n.walkOwn p = (p, n) ::
      if n.isAlias then [] else n.children.flatMap fun c => c.2.walkOwn (Pointer.child p c.1) := by
  cases n with
  | scalar s => rw [walkOwn, children, List.flatMap_nil, ite_self]
  | sequence o items =>
    rw [walkOwn, walkOwnItems_eq, children, List.flatMap_map]
    rfl
  | mapping o entries =>
    rw [walkOwn, walkOwnEntries_eq, children, List.flatMap_map]
    rfl

theorem walkOwn_sublist (n : Node) (p : String) : (n.walkOwn p).Sublist (n.walk p) := by
  induction n using Node.induct generalizing p with
  | step n ih =>
    rw [walkOwn_eq, walk_eq]
    refine List.Sublist.cons_cons _ ?_
    split
    · exact List.nil_sublist _
    · generalize n.children = cs at ih
      induction cs with
      | nil => exact List.Sublist.refl _
      | cons c rest more =>
        obtain ⟨first, others⟩ := List.forall_mem_cons.mp ih
        rw [List.flatMap_cons, List.flatMap_cons]
        exact (first _).append (more others)

/-- How the nodes that a tree writes itself are written, in the order of the text. -/
def ownOrigins (n : Node) : List Origin := (n.walkOwn "").map (·.2.origin)

theorem map_origin_walkOwn (n : Node) (p : String) :
    (n.walkOwn p).map (·.2.origin) = n.ownOrigins := by
  rw [ownOrigins]
  generalize "" = q
  induction n using Node.induct generalizing p q with
  | step n ih =>
    rw [n.walkOwn_eq p, n.walkOwn_eq q, List.map_cons, List.map_cons]
    congr 1
    split
    · rfl
    · rw [List.map_flatMap, List.map_flatMap]
      exact List.flatMap_congr fun c hc => ih c hc _ _

theorem ownOrigins_eq (n : Node) :
    n.ownOrigins = n.origin :: if n.isAlias then [] else n.children.flatMap (·.2.ownOrigins) := by
  rw [ownOrigins, walkOwn_eq, List.map_cons]
  congr 1
  split
  · rfl
  · rw [List.map_flatMap]
    exact List.flatMap_congr fun c _ => c.2.map_origin_walkOwn _

theorem ownOrigins_of_isAlias {n : Node} (h : n.isAlias = true) : n.ownOrigins = [n.origin] := by
  rw [ownOrigins_eq, if_pos h]

theorem ownOrigins_of_own {n : Node} (h : n.isAlias = false) :
    n.ownOrigins = n.origin :: n.children.flatMap (·.2.ownOrigins) := by
  rw [ownOrigins_eq, if_neg (Bool.eq_false_iff.mp h)]

theorem ownOrigins_scalar (s : Scalar) : (Node.scalar s).ownOrigins = [s.origin] := by
  rw [ownOrigins_eq, children, List.flatMap_nil, ite_self]
  rfl

theorem ownOrigins_sequence {o : Origin} {items : List Node}
    (own : (Node.sequence o items).isAlias = false) :
    (Node.sequence o items).ownOrigins = o :: items.flatMap ownOrigins := by
  rw [ownOrigins_of_own own, children, List.flatMap_map, ← List.flatMap_map Prod.fst ownOrigins,
    List.zipIdx_map_fst]
  rfl

theorem ownOrigins_mapping {o : Origin} {entries : List (Scalar × Node)}
    (own : (Node.mapping o entries).isAlias = false) :
    (Node.mapping o entries).ownOrigins = o :: entries.flatMap (·.2.ownOrigins) := by
  rw [ownOrigins_of_own own, children, List.flatMap_map]
  rfl

theorem isWithin_of_mem_walk {n m : Node} {p q : String} (h : (q, m) ∈ n.walk p) :
    Pointer.isWithin p q = true := by
  obtain ⟨path, -, rfl⟩ := mem_walk_iff.mp h
  exact Pointer.isWithin_descendant_self p path

end Node

end FlowLint.Tree

namespace FlowLint.Style

open FlowLint.Tree

/-- What the rule about anchors says of a node that has the name of an anchor. -/
def nodeDraft? (x : String × Node) : Option Draft :=
  x.2.origin.anchor.map fun name => anchorDraft x.1 name x.2.isAlias

/-- The pointers of the aliases among some nodes. -/
def aliasPointers (l : List (String × Node)) : List String :=
  (l.filter (·.2.isAlias)).map (·.1)

theorem aliasPointers_append (l l' : List (String × Node)) :
    aliasPointers (l ++ l') = aliasPointers l ++ aliasPointers l' := by
  simp [aliasPointers]

theorem nodeDrafts_cons (x : String × Node) (l : List (String × Node)) :
    (x :: l).filterMap nodeDraft? = (nodeDraft? x).toList ++ l.filterMap nodeDraft? := by
  rw [List.filterMap_cons]
  cases nodeDraft? x <;> rfl

/-- What stands below an alias is passed over. -/
theorem anchorsFrom_below {passed : List String} {b : String} (hb : b ∈ passed)
    {l : List (String × Node)} (below : ∀ x ∈ l, Text.startsWith x.1 (b ++ "/") = true)
    (rest : List (String × Node)) : anchorsFrom passed (l ++ rest) = anchorsFrom passed rest := by
  induction l with
  | nil => rfl
  | cons x l ih =>
    obtain ⟨here, others⟩ := List.forall_mem_cons.mp below
    have skipped : (passed.any fun p => Text.startsWith x.1 (p ++ "/")) = true :=
      List.any_eq_true.mpr ⟨b, hb, here⟩
    rw [List.cons_append, anchorsFrom, if_pos skipped, ih others]

/-- A node that stands apart from the aliases before it is judged by its own name. -/
theorem anchorsFrom_cons {passed : List String} {p : String} {n : Node}
    (apart : ∀ b ∈ passed, Pointer.Apart b p)
    (named : n.isAlias = true → n.origin.anchor.isSome = true) (rest : List (String × Node)) :
    anchorsFrom passed ((p, n) :: rest) =
      (nodeDraft? (p, n)).toList ++ anchorsFrom (passed ++ aliasPointers [(p, n)]) rest := by
  have kept : (passed.any fun b => Text.startsWith p (b ++ "/")) = false := by
    refine List.any_eq_false.mpr fun b hb => ?_
    have outside := (apart b hb).1
    rw [Pointer.isWithin, Bool.or_eq_false_iff] at outside
    exact Bool.eq_false_iff.mp outside.2
  rw [anchorsFrom, if_neg (Bool.eq_false_iff.mp kept)]
  cases anchor : n.origin.anchor with
  | none =>
    have own : n.isAlias = false := by
      refine Bool.eq_false_iff.mpr fun aliased => ?_
      simpa [anchor] using named aliased
    simp [nodeDraft?, aliasPointers, anchor, own]
  | some name =>
    have style : (n.origin.style == .alias) = n.isAlias := rfl
    cases own : n.isAlias <;> simp [nodeDraft?, aliasPointers, anchor, own, style]

/-- Behind aliases that stand apart from `p`, the rule about anchors judges the nodes `own` among
`all`, each by its own name. -/
def Judges (p : String) (all own : List (String × Node)) : Prop :=
  ∀ passed rest, (∀ b ∈ passed, Pointer.Apart b p) →
    anchorsFrom passed (all ++ rest) =
      own.filterMap nodeDraft? ++ anchorsFrom (passed ++ aliasPointers own) rest

/-- The children of a node are judged one after the other: the aliases below one of them stand apart
from the next. -/
theorem anchorsFrom_children {p : String} {cs : List (String × Node)}
    {all own : String × Node → List (String × Node)}
    (judged : ∀ c ∈ cs, Judges (Pointer.child p c.1) (all c) (own c))
    (inside : ∀ c ∈ cs, ∀ x ∈ own c, Pointer.isWithin (Pointer.child p c.1) x.1 = true)
    (different : (cs.map (·.1)).Nodup) {passed : List String}
    (apart : ∀ b ∈ passed, ∀ c ∈ cs, Pointer.Apart b (Pointer.child p c.1))
    (rest : List (String × Node)) :
    anchorsFrom passed (cs.flatMap all ++ rest) = (cs.flatMap own).filterMap nodeDraft? ++
      anchorsFrom (passed ++ aliasPointers (cs.flatMap own)) rest := by
  induction cs generalizing passed with
  | nil => simp [aliasPointers]
  | cons c cs ih =>
    obtain ⟨judged_c, judged_cs⟩ := List.forall_mem_cons.mp judged
    obtain ⟨inside_c, inside_cs⟩ := List.forall_mem_cons.mp inside
    rw [List.map_cons, List.nodup_cons] at different
    have apart_c : ∀ b ∈ passed, Pointer.Apart b (Pointer.child p c.1) := fun b hb =>
      apart b hb c List.mem_cons_self
    have apart_cs : ∀ b ∈ passed ++ aliasPointers (own c),
        ∀ d ∈ cs, Pointer.Apart b (Pointer.child p d.1) := by
      refine List.forall_mem_append.mpr ⟨fun b hb d hd => apart b hb d (.tail _ hd), ?_⟩
      intro b hb d hd
      obtain ⟨x, hx, rfl⟩ := List.mem_map.mp hb
      have differ : d.1 ≠ c.1 := fun same => different.1 (same ▸ List.mem_map_of_mem hd)
      exact ((Pointer.apart_child p differ).within (inside_c x (List.mem_of_mem_filter hx))).symm
    rw [List.flatMap_cons, List.append_assoc, judged_c passed _ apart_c,
      ih judged_cs inside_cs different.2 apart_cs, List.flatMap_cons, List.filterMap_append,
      aliasPointers_append, List.append_assoc, List.append_assoc]

theorem judges_walk {n : Node} (distinct : n.All Node.HasDistinctChildren) {p : String}
    (named : ∀ x ∈ n.walkOwn p, x.2.isAlias = true → x.2.origin.anchor.isSome = true) :
    Judges p (n.walk p) (n.walkOwn p) := by
  induction n using Node.induct generalizing p with
  | step n ih =>
    intro passed rest apart
    obtain ⟨different, below⟩ := Node.all_iff.mp distinct
    rw [n.walkOwn_eq] at named ⊢
    obtain ⟨named_n, named_below⟩ := List.forall_mem_cons.mp named
    rw [n.walk_eq, List.cons_append, anchorsFrom_cons apart named_n]
    cases aliased : n.isAlias with
    | true =>
      have passed_n : p ∈ passed ++ aliasPointers [(p, n)] := by simp [aliasPointers, aliased]
      have copies : ∀ x ∈ n.children.flatMap fun c => c.2.walk (Pointer.child p c.1),
          Text.startsWith x.1 (p ++ "/") = true := by
        intro x hx
        obtain ⟨c, -, hx⟩ := List.mem_flatMap.mp hx
        exact Pointer.startsWith_of_isWithin_child (Node.isWithin_of_mem_walk hx)
      rw [anchorsFrom_below passed_n copies, if_pos rfl, nodeDrafts_cons, List.filterMap_nil,
        List.append_nil]
    | false =>
      rw [aliased, if_neg Bool.false_ne_true] at named_below
      have judged : ∀ c ∈ n.children, Judges (Pointer.child p c.1)
          (c.2.walk (Pointer.child p c.1)) (c.2.walkOwn (Pointer.child p c.1)) := fun c hc =>
        ih c hc (below c hc) fun x hx => named_below x (List.mem_flatMap.mpr ⟨c, hc, hx⟩)
      have inside : ∀ c ∈ n.children, ∀ x ∈ c.2.walkOwn (Pointer.child p c.1),
          Pointer.isWithin (Pointer.child p c.1) x.1 = true := fun c _ x hx =>
        Node.isWithin_of_mem_walk ((c.2.walkOwn_sublist _).subset hx)
      have none_new : aliasPointers [(p, n)] = [] := by simp [aliasPointers, aliased]
      have apart_children : ∀ b ∈ passed, ∀ c ∈ n.children,
          Pointer.Apart b (Pointer.child p c.1) := fun b hb c _ =>
        (apart b hb).within (Pointer.isWithin_child p c.1)
      rw [none_new, List.append_nil, anchorsFrom_children judged inside different apart_children,
        if_neg Bool.false_ne_true, nodeDrafts_cons, ← List.singleton_append, aliasPointers_append,
        none_new, List.nil_append, List.append_assoc]

/-- The rule about anchors judges the nodes that a tree writes itself. -/
theorem anchorsFrom_walk {n : Node} (distinct : n.All Node.HasDistinctChildren)
    (named : ∀ x ∈ n.walkOwn "", x.2.isAlias = true → x.2.origin.anchor.isSome = true) :
    anchorsFrom [] (n.walk "") = (n.walkOwn "").filterMap nodeDraft? := by
  have judged := judges_walk distinct named [] [] nofun
  rwa [List.append_nil, anchorsFrom, List.append_nil] at judged

end FlowLint.Style
