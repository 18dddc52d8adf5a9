import FlowLint.Proofs.Lookup
import FlowLint.Proofs.Spelling
import FlowLint.Proofs.Table

/-! How deep a tree can be. The builder counts the collections that are open in the text; what an
alias stands for is put into the tree as a whole and counts for nothing. So the collections of a
chain that meets no alias are at most `maxNesting`, and each alias on the way allows as many again
(`depth_load_le`). -/

namespace FlowLint.Tree

open Yaml (Event Position)

mutual

/-- The weight of the heaviest chain of collections, each inside the one before. -/
def Node.height (weight : Origin → Nat) : Node → Nat
  | .scalar _ => 0
  | .sequence o items => weight o + heightItems weight items
  | .mapping o entries => weight o + heightEntries weight entries

@[inherit_doc Node.height] def heightItems (weight : Origin → Nat) : List Node → Nat
  | [] => 0
  | n :: rest => max (n.height weight) (heightItems weight rest)

@[inherit_doc Node.height] def heightEntries (weight : Origin → Nat) :
    List (Scalar × Node) → Nat
  | [] => 0
  | (_, n) :: rest => max (n.height weight) (heightEntries weight rest)

end

namespace Node

/-- How many collections stand inside one another, those that aliases stand for among them. -/
def depth (n : Node) : Nat := n.height fun _ => 1

/-- How many aliases of collections stand inside one another. -/
def aliasDepth (n : Node) : Nat := n.height fun o => if o.style == .alias then 1 else 0

variable {weight : Origin → Nat} {n : Node}

theorem heightItems_le_iff {items : List Node} {m : Nat} :
    heightItems weight items ≤ m ↔ ∀ n ∈ items, n.height weight ≤ m := by
  induction items with
  | nil => simp [heightItems]
  | cons n rest ih => rw [heightItems, Nat.max_le, ih, List.forall_mem_cons]

theorem heightEntries_le_iff {entries : List (Scalar × Node)} {m : Nat} :
    heightEntries weight entries ≤ m ↔ ∀ e ∈ entries, e.2.height weight ≤ m := by
  induction entries with
  | nil => simp [heightEntries]
  | cons e rest ih => rw [heightEntries, Nat.max_le, ih, List.forall_mem_cons]

theorem nestingItems_le_iff {items : List Node} {m : Nat} :
    nestingItems items ≤ m ↔ ∀ n ∈ items, n.nesting ≤ m := by
  induction items with
  | nil => simp [nestingItems]
  | cons n rest ih => rw [nestingItems, Nat.max_le, ih, List.forall_mem_cons]

theorem nestingEntries_le_iff {entries : List (Scalar × Node)} {m : Nat} :
    nestingEntries entries ≤ m ↔ ∀ e ∈ entries, e.2.nesting ≤ m := by
  induction entries with
  | nil => simp [nestingEntries]
  | cons e rest ih => rw [nestingEntries, Nat.max_le, ih, List.forall_mem_cons]

/-- The height of a collection is its own weight and the height of its highest child. -/
theorem exists_height (weight : Origin → Nat) (collection : n.scalar? = none) :
    ∃ k, n.height weight = weight n.origin + k ∧
      ∀ m, k ≤ m ↔ ∀ c ∈ n.children, c.2.height weight ≤ m := by
  cases n with
  | scalar s => cases collection
  | sequence o items =>
    exact ⟨_, rfl, fun m => heightItems_le_iff.trans
      (forall_children_sequence (P := (·.height weight ≤ m))).symm⟩
  | mapping o entries =>
    exact ⟨_, rfl, fun m => heightEntries_le_iff.trans
      (forall_children_mapping (P := (·.height weight ≤ m))).symm⟩

/-- How deep the node would be nested in the text if it were written in place, as an alias that
stands for it does not show. -/
def levels (n : Node) : Nat := (n.withOrigin {}).nesting

theorem nesting_eq (n : Node) : n.nesting = if n.isAlias then 0 else n.levels := by
  cases n with
  | scalar s => exact (ite_self 0).symm
  | sequence | mapping => rfl

theorem exists_levels (collection : n.scalar? = none) :
    ∃ k, n.levels = k + 1 ∧ ∀ m, k ≤ m ↔ ∀ c ∈ n.children, c.2.nesting ≤ m := by
  cases n with
  | scalar s => cases collection
  | sequence o items =>
    exact ⟨_, rfl, fun m => nestingItems_le_iff.trans
      (forall_children_sequence (P := (·.nesting ≤ m))).symm⟩
  | mapping o entries =>
    exact ⟨_, rfl, fun m => nestingEntries_le_iff.trans
      (forall_children_mapping (P := (·.nesting ≤ m))).symm⟩

/-- There is room for the node in a text. -/
def HasRoom (n : Node) : Prop := n.levels ≤ maxNesting

/-- Every alias begins a new chain of at most `maxNesting` collections. -/
theorem depth_le (h : n.All HasRoom) : n.depth ≤ n.nesting + maxNesting * n.aliasDepth := by
  induction n using Node.induct with
  | step n ih =>
    obtain ⟨here, below⟩ := all_iff.mp h
    cases collection : n.scalar? with
    | some s =>
      cases n with
      | scalar s => exact Nat.zero_le _
      | sequence | mapping => cases collection
    | none =>
      obtain ⟨k, deep, least⟩ := exists_height (fun _ => 1) collection
      obtain ⟨a, aliased, above⟩ :=
        exists_height (fun o => if o.style == .alias then 1 else 0) collection
      obtain ⟨j, nested, inside⟩ := exists_levels collection
      change n.depth = 1 + k at deep
      change n.aliasDepth = (if n.isAlias then 1 else 0) + a at aliased
      have deepest : k ≤ j + maxNesting * a := by
        refine (least _).mpr fun c hc => (ih c hc (below c hc)).trans ?_
        have level := (inside j).mp (Nat.le_refl j) c hc
        have aliases : c.2.aliasDepth ≤ a := (above a).mp (Nat.le_refl a) c hc
        exact Nat.add_le_add level (Nat.mul_le_mul_left maxNesting aliases)
      have room : j + 1 ≤ maxNesting := nested ▸ here
      rw [deep, aliased, nesting_eq, nested]
      cases n.isAlias with
      | false => simp only [Bool.false_eq_true, if_false, Nat.zero_add]; omega
      | true => simp only [if_true, Nat.mul_add, Nat.mul_one]; omega

theorem hasRoom_withOrigin {o : Origin} : (n.withOrigin o).HasRoom ↔ n.HasRoom := by
  cases n <;> rfl

theorem all_hasRoom_withOrigin {o : Origin} (h : n.All HasRoom) :
    (n.withOrigin o).All HasRoom := by
  obtain ⟨here, below⟩ := all_iff.mp h
  refine all_iff.mpr ⟨hasRoom_withOrigin.mpr here, ?_⟩
  rwa [children_withOrigin]

theorem all_hasRoom_scalar (s : Scalar) : (Node.scalar s).All HasRoom :=
  all_iff.mpr ⟨Nat.zero_le _, nofun⟩

/-- The node can stand where so many collections are open. -/
structure FitsIn (opened : Nat) (n : Node) : Prop where
  nesting : n.nesting + opened ≤ maxNesting
  rooms : n.All HasRoom

/-- A collection fits where its children fit once it is open. -/
theorem FitsIn.collect {opened : Nat} (collection : n.scalar? = none)
    (room : opened + 1 ≤ maxNesting) (h : ∀ c ∈ n.children, c.2.FitsIn (opened + 1)) :
    n.FitsIn opened := by
  obtain ⟨j, nested, inside⟩ := exists_levels collection
  have fits : j ≤ maxNesting - (opened + 1) := by
    refine (inside _).mpr fun c hc => ?_
    have := (h c hc).nesting
    omega
  have levels : n.levels + opened ≤ maxNesting := by omega
  refine ⟨?_, all_iff.mpr ⟨Nat.le_of_add_right_le levels, fun c hc => (h c hc).rooms⟩⟩
  rw [nesting_eq]
  split <;> omega

end Node

/-- The nodes that an open collection holds. -/
def Frame.nodes : Frame → List Node
  | .sequence _ items => items
  | .mapping _ entries _ => entries.map (·.2)

namespace Builder

/-- A node that is attached becomes the root, or it goes into the innermost collection. -/
theorem attach_nodes {b b' : Builder} {n : Node} (h : b.attach n = .ok b') :
    b.frames = [] ∧ b' = { b with root := some n } ∨
      ∃ f f' outer, b.frames = f :: outer ∧ b' = { b with frames := f' :: outer } ∧
        ∀ m ∈ f'.nodes, m = n ∨ m ∈ f.nodes := by
  unfold attach at h
  split at h
  next none =>
    cases h
    exact .inl ⟨none, rfl⟩
  next o items outer innermost =>
    cases h
    exact .inr ⟨_, _, outer, innermost, rfl, fun m hm => List.mem_cons.mp hm⟩
  next o entries key outer innermost =>
    cases h
    exact .inr ⟨_, _, outer, innermost, rfl, fun m hm => List.mem_cons.mp hm⟩
  next o entries outer innermost =>
    split at h
    · split at h
      · cases h
      · cases h
        exact .inr ⟨_, _, outer, innermost, rfl, fun m hm => .inr hm⟩
    · cases h

/-- Whatever the builder keeps can stand where it stands. -/
structure IsShallow (b : Builder) : Prop where
  few : b.frames.length ≤ maxNesting
  frames : ∀ f outer, f :: outer <:+ b.frames → ∀ n ∈ f.nodes, n.FitsIn (outer.length + 1)
  anchors : ∀ a ∈ b.anchors, a.2.All Node.HasRoom
  root : ∀ n, b.root = some n → n.FitsIn 0

variable {b b' : Builder} {n : Node}

theorem isShallow_empty : IsShallow {} := by
  refine ⟨Nat.zero_le _, fun f outer inside => ?_, nofun, nofun⟩
  cases List.suffix_nil.mp inside

theorem attach_isShallow (hb : b.IsShallow) (hn : n.FitsIn b.frames.length)
    (h : b.attach n = .ok b') : b'.IsShallow := by
  rcases attach_nodes h with ⟨none, rfl⟩ | ⟨f, f', outer, innermost, rfl, held⟩
  · refine ⟨hb.few, hb.frames, hb.anchors, fun m hm => ?_⟩
    cases hm
    rwa [none] at hn
  · have few := hb.few
    rw [innermost] at hn few
    refine ⟨few, fun g rest inside m hm => ?_, hb.anchors, hb.root⟩
    rcases List.suffix_cons_iff.mp inside with same | inside
    · cases same
      rcases held m hm with rfl | hm
      · exact hn
      · exact hb.frames f outer (innermost ▸ List.suffix_rfl) m hm
    · exact hb.frames g rest (innermost ▸ List.suffix_cons_iff.mpr (.inr inside)) m hm

theorem finish_isShallow (hb : b.IsShallow) (hn : n.FitsIn b.frames.length)
    (h : b.finish n = .ok b') : b'.IsShallow := by
  cases anchored : n.origin.anchor with
  | none =>
    simp only [finish, anchored] at h
    exact attach_isShallow hb hn h
  | some name =>
    simp only [finish, anchored] at h
    have grown : { b with anchors := (name, n) :: b.anchors }.IsShallow :=
      ⟨hb.few, hb.frames, List.forall_mem_cons.mpr ⟨hn.rooms, hb.anchors⟩, hb.root⟩
    exact attach_isShallow grown hn h

theorem openFrame_isShallow {p : Position} {f : Frame} (hb : b.IsShallow) (empty : f.nodes = [])
    (h : b.openFrame p f = .ok b') : b'.IsShallow := by
  unfold openFrame at h
  split at h
  · cases h
  next room =>
    cases h
    refine ⟨Nat.lt_of_not_ge room, fun g rest inside m hm => ?_, hb.anchors, hb.root⟩
    rcases List.suffix_cons_iff.mp inside with same | inside
    · cases same
      rw [empty] at hm
      cases hm
    · exact hb.frames g rest inside m hm

/-- A collection that is closed holds what fits into it. -/
theorem close_isShallow {f : Frame} {outer : List Frame} (hb : b.IsShallow)
    (innermost : b.frames = f :: outer) (collection : n.scalar? = none)
    (held : ∀ c ∈ n.children, c.2 ∈ f.nodes)
    (h : { b with frames := outer }.finish n = .ok b') : b'.IsShallow := by
  have few := hb.few
  rw [innermost] at few
  have rest : { b with frames := outer }.IsShallow := by
    refine ⟨Nat.le_of_succ_le few, fun g rest inside => ?_, hb.anchors, hb.root⟩
    exact hb.frames g rest (innermost ▸ List.suffix_cons_iff.mpr (.inr inside))
  refine finish_isShallow rest (.collect collection few fun c hc => ?_) h
  exact hb.frames f outer (innermost ▸ List.suffix_rfl) _ (held c hc)

/-- One event keeps the invariant. -/
theorem step_isShallow {lines : List String} {e : Event} (hb : b.IsShallow)
    (h : step lines b e = .ok b') : b'.IsShallow := by
  have scalars (s : Scalar) : (Node.scalar s).FitsIn b.frames.length :=
    ⟨(Nat.zero_add _).trans_le hb.few, Node.all_hasRoom_scalar s⟩
  cases e with
  | documentStart p =>
    rw [step] at h
    split at h
    · cases h
    · cases h
      exact hb
  | documentEnd =>
    cases h
    exact hb
  | «alias» name p =>
    rw [step] at h
    split at h
    · cases h
    next m found =>
      obtain ⟨before, after, split, -⟩ := List.lookup_eq_some_iff.mp found
      have rooms := Node.all_hasRoom_withOrigin (o := originAt .alias (some name) p)
        (hb.anchors (name, m) (by rw [split]; simp))
      refine attach_isShallow hb ⟨?_, rooms⟩ h
      -- What an alias stands for is not nested in the text.
      have own : (m.withOrigin (originAt .alias (some name) p)).isAlias = true := by
        cases m <;> rfl
      rw [Node.nesting_eq, if_pos own, Nat.zero_add]
      exact hb.few
  | scalar value style anchor start stop => exact finish_isShallow hb (scalars _) h
  | sequenceStart flow anchor start => exact openFrame_isShallow hb rfl h
  | mappingStart flow anchor start => exact openFrame_isShallow hb rfl h
  | sequenceEnd =>
    rw [step] at h
    split at h
    next o items outer innermost =>
      refine close_isShallow hb innermost rfl ?_ h
      exact Node.forall_children_sequence.mpr fun n hn => List.mem_reverse.mp hn
    · cases h
      exact hb
  | mappingEnd =>
    rw [step] at h
    split at h
    next o entries key outer innermost =>
      refine close_isShallow hb innermost rfl ?_ h
      exact Node.forall_children_mapping.mpr fun e he =>
        List.mem_map.mpr ⟨e, List.mem_reverse.mp he, rfl⟩
    · cases h
      exact hb

/-- All events together keep it. -/
theorem run_isShallow {lines : List String} {events : List Event} (hb : b.IsShallow)
    (h : run lines b events = .ok b') : b'.IsShallow := by
  induction events generalizing b with
  | nil =>
    cases h
    exact hb
  | cons e rest ih =>
    rw [run_cons] at h
    cases stepped : step lines b e with
    | error fault =>
      rw [stepped] at h
      cases h
    | ok b₁ =>
      rw [stepped] at h
      exact ih (step_isShallow hb stepped) h

end Builder

theorem fitsIn_load {text : String} {doc : Document} (h : load text = .ok doc) :
    doc.root.FitsIn 0 := by
  have empty : Node.empty.FitsIn 0 := .collect rfl (by decide) nofun
  unfold load at h
  split at h
  · cases h
    exact empty
  · unfold Node.ofEvents at h
    split at h
    · cases h
    · cases h
    next b built _ =>
      cases h
      have shallow := Builder.run_isShallow Builder.isShallow_empty built
      cases hr : b.root with
      | none => exact empty
      | some n => exact shallow.root n hr

/-- In the text of a document at most `maxNesting` collections stand inside one another. In its tree
there may be more, since an alias may stand inside collections and stand for others: as many again
for each alias inside another. -/
theorem depth_load_le {text : String} {doc : Document} (h : load text = .ok doc) :
    doc.root.nesting ≤ maxNesting ∧
      doc.root.depth ≤ maxNesting * (doc.root.aliasDepth + 1) := by
  obtain ⟨nested, rooms⟩ := fitsIn_load h
  refine ⟨nested, (Node.depth_le rooms).trans ?_⟩
  rw [Nat.mul_add, Nat.mul_one, Nat.add_comm]
  exact Nat.add_le_add_left nested _

/-- The beginnings of sequences inside one another, in one line. -/
def dashes (count : Nat) : List Char := (List.replicate count ['-', ' ']).flatten

/-- Fifty sequences with a name, and fifty-one around an alias for them. -/
def stackedText : String :=
  .ofList ("- &x\n ".toList ++ dashes 50 ++ "a\n".toList ++ dashes 51 ++ "*x".toList)

theorem load_stackedText : ∃ doc, load stackedText = .ok doc ∧ doc.root.depth = 101 :=
  exists_of_toOption (show (load stackedText).toOption.map (·.root.depth) = some 101 by
    decide +kernel)

theorem depth_load_stacked : ∃ doc, load stackedText = .ok doc ∧ doc.root.depth = 101 ∧
    doc.root.nesting ≤ maxNesting ∧
    doc.root.depth ≤ maxNesting * (doc.root.aliasDepth + 1) := by
  obtain ⟨doc, loaded, deep⟩ := load_stackedText
  exact ⟨doc, loaded, deep, depth_load_le loaded⟩

/-- An alias can put more than `maxNesting` collections inside one another. -/
theorem not_forall_depth_load_le :
    ¬ ∀ text doc, load text = .ok doc → doc.root.depth ≤ maxNesting := by
  intro all
  obtain ⟨doc, loaded, deep⟩ := load_stackedText
  have few := all stackedText doc loaded
  rw [deep] at few
  exact absurd few (by decide)

end FlowLint.Tree
