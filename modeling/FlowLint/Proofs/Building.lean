import FlowLint.Proofs.Lookup
import FlowLint.Tree.Builder

/-! What holds while a tree is built. `Builder.IsSound` is the invariant of the builder: no
collection that is finished or open has a key twice, the key that waits for its value included, and
none has more children than events have been taken. One event keeps it (`step_isSound`), so every
document that loads has it (`load_isSound`). -/

namespace FlowLint.Tree

namespace Node

@[simp] theorem children_withOrigin (o : Origin) (n : Node) :
    (n.withOrigin o).children = n.children := by
  cases n <;> rfl

theorem IsSound.withOrigin {k : Nat} {n : Node} (h : n.IsSound k) (o : Origin) :
    (n.withOrigin o).IsSound k := by
  refine ⟨?_, fun o' items same => ?_⟩
  · rw [HasDistinctChildren, children_withOrigin]
    exact h.distinct
  · cases n <;> cases same
    exact h.few _ _ rfl

theorem All.withOrigin {k : Nat} {n : Node} (h : n.All (IsSound k)) (o : Origin) :
    (n.withOrigin o).All (IsSound k) := by
  obtain ⟨here, below⟩ := all_iff.mp h
  refine all_iff.mpr ⟨here.withOrigin o, ?_⟩
  rwa [children_withOrigin]

theorem all_isSound_scalar (k : Nat) (s : Scalar) : (Node.scalar s).All (IsSound k) :=
  all_iff.mpr ⟨⟨List.nodup_nil, nofun⟩, nofun⟩

theorem all_isSound_sequence {k : Nat} {o : Origin} {items : List Node}
    (few : items.length ≤ k) (h : ∀ n ∈ items, n.All (IsSound k)) :
    (Node.sequence o items).All (IsSound k) := by
  refine all_iff.mpr ⟨⟨hasDistinctChildren_sequence o items, ?_⟩, forall_children_sequence.mpr h⟩
  rintro _ _ ⟨⟩
  exact few

theorem all_isSound_mapping {k : Nat} {o : Origin} {entries : List (Scalar × Node)}
    (distinct : (Mapping.keys ⟨o, entries⟩).Nodup) (h : ∀ e ∈ entries, e.2.All (IsSound k)) :
    (Node.mapping o entries).All (IsSound k) :=
  all_iff.mpr ⟨⟨hasDistinctChildren_mapping.mpr distinct, nofun⟩, forall_children_mapping.mpr h⟩

end Node

/-- The keys of an open mapping, with the one that waits for its value. -/
def openKeys (entries : List (Scalar × Node)) (key : Option Scalar) : List String :=
  (key.toList ++ entries.map (·.1)).map (·.value)

/-- What has been read of an open collection is sound. -/
def Frame.IsSound (k : Nat) : Frame → Prop
  | .sequence _ items => items.length ≤ k ∧ ∀ n ∈ items, n.All (Node.IsSound k)
  | .mapping _ entries key =>
    (openKeys entries key).Nodup ∧ ∀ e ∈ entries, e.2.All (Node.IsSound k)

theorem Node.All.isSound_succ {k : Nat} {n : Node} (h : n.All (Node.IsSound k)) :
    n.All (Node.IsSound (k + 1)) := h.mono fun _ hm => hm.mono (Nat.le_succ k)

theorem Frame.IsSound.succ {k : Nat} {f : Frame} (h : f.IsSound k) : f.IsSound (k + 1) := by
  cases f with
  | sequence o items => exact ⟨Nat.le_succ_of_le h.1, fun n hn => (h.2 n hn).isSound_succ⟩
  | mapping o entries key => exact ⟨h.1, fun e he => (h.2 e he).isSound_succ⟩

namespace Builder

/-- Whatever the builder keeps is sound. -/
structure IsSound (k : Nat) (b : Builder) : Prop where
  frames : ∀ f ∈ b.frames, f.IsSound k
  anchors : ∀ a ∈ b.anchors, a.2.All (Node.IsSound k)
  root : ∀ n, b.root = some n → n.All (Node.IsSound k)

theorem isSound_empty : IsSound 0 {} := ⟨nofun, nofun, nofun⟩

theorem IsSound.succ {k : Nat} {b : Builder} (h : b.IsSound k) : b.IsSound (k + 1) :=
  ⟨fun f hf => (h.frames f hf).succ, fun a ha => (h.anchors a ha).isSound_succ,
    fun n hn => (h.root n hn).isSound_succ⟩

theorem nodup_openKeys {entries : List (Scalar × Node)} {key : Scalar}
    (distinct : (openKeys entries none).Nodup)
    (new : entries.find? (·.1.value == key.value) = none) :
    (openKeys entries (some key)).Nodup := by
  refine List.nodup_cons.mpr ⟨fun there => ?_, distinct⟩
  obtain ⟨k', hk', same⟩ := List.mem_map.mp there
  obtain ⟨e, he, rfl⟩ := List.mem_map.mp hk'
  simpa [same] using List.find?_eq_none.mp new e he

/-- A node that is put into a collection adds one child, and a key only if it is new. -/
theorem attach_isSound {k : Nat} {b b' : Builder} {n : Node} (hb : b.IsSound k)
    (hn : n.All (Node.IsSound k)) (h : b.attach n = .ok b') : b'.IsSound (k + 1) := by
  obtain ⟨frames, anchors, root⟩ := b
  have anchored := hb.succ.anchors
  have rooted := hb.succ.root
  have framed : ∀ f' : Frame, ∀ f fs, frames = f :: fs → f'.IsSound (k + 1) →
      ∀ f ∈ f' :: fs, f.IsSound (k + 1) := by
    rintro f' f fs rfl hf'
    exact List.forall_mem_cons.mpr ⟨hf', fun g hg => hb.succ.frames g (.tail _ hg)⟩
  unfold attach at h
  split at h
  next none =>
    cases h
    refine ⟨hb.succ.frames, anchored, fun m hm => ?_⟩
    cases hm
    exact hn.isSound_succ
  next o items fs open_ =>
    cases h
    obtain ⟨few, sound⟩ := hb.frames _ (open_ ▸ List.mem_cons_self)
    refine ⟨framed _ _ _ open_ ⟨Nat.succ_le_succ few, ?_⟩, anchored, rooted⟩
    exact List.forall_mem_cons.mpr
      ⟨hn.isSound_succ, fun m hm => (sound m hm).isSound_succ⟩
  next o entries key fs open_ =>
    cases h
    obtain ⟨distinct, sound⟩ := hb.frames _ (open_ ▸ List.mem_cons_self)
    refine ⟨framed _ _ _ open_ ⟨distinct, ?_⟩, anchored, rooted⟩
    exact List.forall_mem_cons.mpr
      ⟨hn.isSound_succ, fun e he => (sound e he).isSound_succ⟩
  next o entries fs open_ =>
    obtain ⟨distinct, sound⟩ := hb.frames _ (open_ ▸ List.mem_cons_self)
    split at h
    next key =>
      split at h
      · cases h
      next new =>
        cases h
        have keys := nodup_openKeys distinct new
        exact ⟨framed _ _ _ open_ ⟨keys, fun e he => (sound e he).isSound_succ⟩, anchored, rooted⟩
    · cases h

theorem finish_isSound {k : Nat} {b b' : Builder} {n : Node} (hb : b.IsSound k)
    (hn : n.All (Node.IsSound k)) (h : b.finish n = .ok b') : b'.IsSound (k + 1) := by
  cases anchored : n.origin.anchor with
  | none =>
    simp only [finish, anchored] at h
    exact attach_isSound hb hn h
  | some name =>
    simp only [finish, anchored] at h
    have grown : { b with anchors := (name, n) :: b.anchors }.IsSound k :=
      ⟨hb.frames, List.forall_mem_cons.mpr ⟨hn, hb.anchors⟩, hb.root⟩
    exact attach_isSound grown hn h

theorem openFrame_isSound {k : Nat} {b b' : Builder} {p : Yaml.Position} {f : Frame}
    (hb : b.IsSound k) (hf : f.IsSound k) (h : b.openFrame p f = .ok b') : b'.IsSound k := by
  unfold openFrame at h
  split at h
  · cases h
  · cases h
    exact ⟨List.forall_mem_cons.mpr ⟨hf, hb.frames⟩, hb.anchors, hb.root⟩

theorem IsSound.close {k : Nat} {b : Builder} {f : Frame} {fs : List Frame} (hb : b.IsSound k)
    (open_ : b.frames = f :: fs) : f.IsSound k ∧ { b with frames := fs }.IsSound k := by
  have := hb.frames
  rw [open_] at this
  obtain ⟨hf, hfs⟩ := List.forall_mem_cons.mp this
  exact ⟨hf, hfs, hb.anchors, hb.root⟩

theorem step_alias_isSound {k : Nat} {lines : List String} {b b' : Builder} {name : String}
    {p : Yaml.Position} (hb : b.IsSound k) (h : step lines b (.alias name p) = .ok b') :
    b'.IsSound (k + 1) := by
  rw [step] at h
  split at h
  · cases h
  next n found =>
    obtain ⟨before, after, split, -⟩ := List.lookup_eq_some_iff.mp found
    have sound := hb.anchors (name, n) (by rw [split]; simp)
    exact attach_isSound hb (sound.withOrigin _) h

theorem step_sequenceEnd_isSound {k : Nat} {lines : List String} {b b' : Builder}
    (hb : b.IsSound k) (h : step lines b .sequenceEnd = .ok b') : b'.IsSound (k + 1) := by
  rw [step] at h
  split at h
  next o items fs open_ =>
    obtain ⟨⟨few, sound⟩, rest⟩ := hb.close open_
    refine finish_isSound rest (Node.all_isSound_sequence ?_ fun n hn => ?_) h
    · rwa [List.length_reverse]
    · exact sound n (List.mem_reverse.mp hn)
  · cases h
    exact hb.succ

theorem step_mappingEnd_isSound {k : Nat} {lines : List String} {b b' : Builder}
    (hb : b.IsSound k) (h : step lines b .mappingEnd = .ok b') : b'.IsSound (k + 1) := by
  rw [step] at h
  split at h
  next o entries key fs open_ =>
    obtain ⟨⟨distinct, sound⟩, rest⟩ := hb.close open_
    refine finish_isSound rest (Node.all_isSound_mapping ?_ fun e he => ?_) h
    · rw [Mapping.keys, List.map_reverse, List.nodup_reverse]
      rw [openKeys, List.map_append, List.map_map] at distinct
      exact (List.nodup_append.mp distinct).2.1
    · exact sound e (List.mem_reverse.mp he)
  · cases h
    exact hb.succ

/-- One event keeps the invariant. -/
theorem step_isSound {k : Nat} {lines : List String} {b b' : Builder} {e : Yaml.Event}
    (hb : b.IsSound k) (h : step lines b e = .ok b') : b'.IsSound (k + 1) := by
  cases e with
  | documentStart p =>
    rw [step] at h
    split at h
    · cases h
    · cases h
      exact hb.succ
  | documentEnd =>
    cases h
    exact hb.succ
  | «alias» name p => exact step_alias_isSound hb h
  | scalar value style anchor start stop => exact finish_isSound hb (Node.all_isSound_scalar k _) h
  | sequenceStart flow anchor start =>
    have opened : (Frame.sequence (originAt (.ofFlow flow) anchor start) []).IsSound k :=
      ⟨Nat.zero_le k, nofun⟩
    exact (openFrame_isSound hb opened h).succ
  | mappingStart flow anchor start =>
    have opened : (Frame.mapping (originAt (.ofFlow flow) anchor start) [] none).IsSound k :=
      ⟨List.nodup_nil, nofun⟩
    exact (openFrame_isSound hb opened h).succ
  | sequenceEnd => exact step_sequenceEnd_isSound hb h
  | mappingEnd => exact step_mappingEnd_isSound hb h

/-- All events together keep it. -/
theorem run_isSound {k : Nat} {lines : List String} {events : List Yaml.Event} {b b' : Builder}
    (hb : b.IsSound k) (h : run lines b events = .ok b') : b'.IsSound (k + events.length) := by
  induction events generalizing k b with
  | nil =>
    cases h
    exact hb
  | cons e rest ih =>
    rw [run, List.foldlM_cons] at h
    cases hs : step lines b e with
    | error fault =>
      rw [hs] at h
      cases h
    | ok b₁ =>
      rw [hs] at h
      rw [List.length_cons, show k + (rest.length + 1) = k + 1 + rest.length by omega]
      exact ih (step_isSound hb hs) h

end Builder

/-- A document that loads has no key twice in a mapping, and no more children of a node than its
text has events. -/
theorem load_isSound {text : String} {doc : Document} (h : load text = .ok doc) :
    doc.root.All (Node.IsSound (Yaml.Event.ofText text.toList).events.length) := by
  unfold load at h
  split at h
  · cases h
    exact Node.all_isSound_mapping List.nodup_nil nofun
  · unfold Node.ofEvents at h
    split at h
    · cases h
    · cases h
    next b built _ =>
      cases h
      have sound := Builder.run_isSound Builder.isSound_empty built
      rw [Nat.zero_add] at sound
      cases hr : b.root with
      | none => exact Node.all_isSound_mapping List.nodup_nil nofun
      | some n => exact sound.root n hr

end FlowLint.Tree
