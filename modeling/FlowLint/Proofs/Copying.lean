import FlowLint.Tree.Builder
import Mathlib.Data.List.Forall2

/-! Other ways to copy what an alias stands for. `load` marks the node that it puts in the place of
an alias; `loadWith` writes that node as a `Copying` says, and is `load` otherwise
(`loadWith_marked`). Whatever the copying, the same texts load, and the trees differ in nothing but
the way in which the copies are written (`loadWith_like`). -/

namespace FlowLint.Tree

open Yaml (Event Position)

/-- How the copy of a node is written that stands for an alias with the given name and place. -/
abbrev Copying : Type := Node → String → Position → Origin

namespace Copying

/-- The copy is marked as one. -/
def marked : Copying := fun _ name p => originAt .alias (some name) p

/-- The copy is written like the node itself, as if it stood there without the alias. -/
def inPlace : Copying := fun n _ p => originAt n.origin.style none p

/-- The copy of a scalar is written in quotes, that of another node like the node itself. -/
def quoted : Copying := fun n _ p =>
  originAt (if n.scalar?.isSome then .quoted else n.origin.style) none p

end Copying

/-- `Builder.step` with another way of copying. -/
def Builder.stepWith (copy : Copying) (lines : List String) (b : Builder) :
    Event → Except BuildError Builder
  | .alias name p =>
    match b.anchors.lookup name with
    | none => .error (.undefinedAlias name (p.line + 1) (p.column + 1))
    | some n => b.attach (n.withOrigin (copy n name p))
  | e => b.step lines e

/-- `load` with another way of copying. -/
def loadWith (copy : Copying) (text : String) : Except LoadError Document :=
  if Text.allBlank text then .ok (.ofRoot .empty text)
  else
    let stream := Event.ofText text.toList
    match stream.events.foldlM (Builder.stepWith copy (Text.lines text)) {}, stream.fault with
    | .error e, _ => .error (.build e)
    | .ok _, some f => .error (.fault f)
    | .ok b, none => .ok (.ofRoot (b.root.getD .empty) text)

theorem loadWith_marked (text : String) : loadWith .marked text = load text := by
  have step : Builder.stepWith .marked (Text.lines text) = Builder.step (Text.lines text) := by
    funext b e
    cases e <;> rfl
  unfold loadWith load Node.ofEvents Builder.run
  split
  · rfl
  · simp only [step]
    generalize List.foldlM (Builder.step (Text.lines text)) {} _ = built
    generalize (Event.ofText text.toList).fault = fault
    cases built with
    | error e => rfl
    | ok b => cases fault <;> rfl

/-! ### Trees that are alike -/

variable {R : Origin → Origin → Prop}

mutual

/-- The trees have the same shape and the same texts, and the ways in which corresponding scalars
are written are related by `R`. -/
inductive Node.Like (R : Origin → Origin → Prop) : Node → Node → Prop where
  | scalar {value : String} {o o' : Origin} {endLine : Nat} : R o o' →
      Node.Like R (.scalar ⟨value, o, endLine⟩) (.scalar ⟨value, o', endLine⟩)
  | sequence {o o' : Origin} {items items' : List Node} :
      List.Forall₂ (Node.Like R) items items' →
      Node.Like R (.sequence o items) (.sequence o' items')
  | mapping {o o' : Origin} {entries entries' : List (Scalar × Node)} :
      List.Forall₂ (EntryLike R) entries entries' →
      Node.Like R (.mapping o entries) (.mapping o' entries')

@[inherit_doc Node.Like]
inductive EntryLike (R : Origin → Origin → Prop) : Scalar × Node → Scalar × Node → Prop where
  | mk {value : String} {o o' : Origin} {endLine : Nat} {n n' : Node} : R o o' → Node.Like R n n' →
      EntryLike R (⟨value, o, endLine⟩, n) (⟨value, o', endLine⟩, n')

end

/-- The open collections are alike, and so are the keys that wait for their values. -/
inductive Frame.Like (R : Origin → Origin → Prop) : Frame → Frame → Prop where
  | sequence {o : Origin} {items items' : List Node} : List.Forall₂ (Node.Like R) items items' →
      Frame.Like R (.sequence o items) (.sequence o items')
  | mapping {o : Origin} {entries entries' : List (Scalar × Node)} :
      List.Forall₂ (EntryLike R) entries entries' →
      Frame.Like R (.mapping o entries none) (.mapping o entries' none)
  | mappingKey {o : Origin} {entries entries' : List (Scalar × Node)} {value : String}
      {k k' : Origin} {endLine : Nat} : List.Forall₂ (EntryLike R) entries entries' → R k k' →
      Frame.Like R (.mapping o entries (some ⟨value, k, endLine⟩))
        (.mapping o entries' (some ⟨value, k', endLine⟩))

namespace Builder

/-- Whatever the builders keep is alike. -/
structure Like (R : Origin → Origin → Prop) (b b' : Builder) : Prop where
  frames : List.Forall₂ (Frame.Like R) b.frames b'.frames
  anchors : List.Forall₂ (fun a a' => a.1 = a'.1 ∧ a.2.Like R a'.2) b.anchors b'.anchors
  root : Option.Rel (Node.Like R) b.root b'.root

variable {b b' c : Builder} {n n' : Node}

theorem find?_like {entries entries' : List (Scalar × Node)} {key : String}
    (h : List.Forall₂ (EntryLike R) entries entries')
    (new : entries.find? (·.1.value == key) = none) :
    entries'.find? (·.1.value == key) = none := by
  induction h with
  | nil => rfl
  | cons he _ ih =>
    cases he with
    | mk _ _ =>
      rw [List.find?_cons] at new ⊢
      split at new
      · cases new
      next other => rw [other]; exact ih new

theorem attach_like (hb : b.Like R b') (hn : n.Like R n') (h : b.attach n = .ok c) :
    ∃ c', b'.attach n' = .ok c' ∧ c.Like R c' := by
  obtain ⟨frames, anchors, root⟩ := b
  obtain ⟨frames', anchors', root'⟩ := b'
  obtain ⟨hframes, hanchors, hroot⟩ := hb
  cases hframes with
  | nil =>
    cases h
    exact ⟨_, rfl, .nil, hanchors, .some hn⟩
  | cons hf hfs =>
    cases hf with
    | sequence hitems =>
      cases h
      exact ⟨_, rfl, .cons (.sequence (.cons hn hitems)) hfs, hanchors, hroot⟩
    | mappingKey hentries hkey =>
      cases h
      exact ⟨_, rfl, .cons (.mapping (.cons (.mk hkey hn) hentries)) hfs, hanchors, hroot⟩
    | mapping hentries =>
      cases hn with
      | scalar hkey =>
        simp only [attach] at h ⊢
        split at h
        · cases h
        next new =>
          cases h
          rw [find?_like hentries new]
          exact ⟨_, rfl, .cons (.mappingKey hentries hkey) hfs, hanchors, hroot⟩
      | sequence _ => cases h
      | mapping _ => cases h

theorem lookup_like {anchors anchors' : List (String × Node)} {name : String}
    (h : List.Forall₂ (fun a a' => a.1 = a'.1 ∧ a.2.Like R a'.2) anchors anchors')
    (found : anchors.lookup name = some n) :
    ∃ n', anchors'.lookup name = some n' ∧ n.Like R n' := by
  induction h with
  | nil => cases found
  | @cons a a' as as' ha _ ih =>
    obtain ⟨name', m⟩ := a
    obtain ⟨name'', m'⟩ := a'
    obtain ⟨same, hm⟩ := ha
    cases same
    rw [List.lookup_cons] at found ⊢
    cases hname : name == name' with
    | true =>
      rw [hname] at found
      cases found
      exact ⟨m', rfl, hm⟩
    | false =>
      rw [hname] at found
      exact ih found

/-- Nodes that are written in the same way can be finished alike. -/
theorem finish_like (hb : b.Like R b') (hn : n.Like R n') (same : n.origin = n'.origin)
    (h : b.finish n = .ok c) : ∃ c', b'.finish n' = .ok c' ∧ c.Like R c' := by
  cases anchored : n.origin.anchor with
  | none =>
    simp only [finish, ← same, anchored] at h ⊢
    exact attach_like hb hn h
  | some name =>
    simp only [finish, ← same, anchored] at h ⊢
    have grown : Like R { b with anchors := (name, n) :: b.anchors }
        { b' with anchors := (name, n') :: b'.anchors } :=
      ⟨hb.frames, .cons ⟨rfl, hn⟩ hb.anchors, hb.root⟩
    exact attach_like grown hn h

theorem openFrame_like {p : Position} {f f' : Frame} (hb : b.Like R b') (hf : f.Like R f')
    (h : b.openFrame p f = .ok c) : ∃ c', b'.openFrame p f' = .ok c' ∧ c.Like R c' := by
  rw [openFrame, hb.frames.length_eq] at h
  rw [openFrame]
  split at h
  · cases h
  next room =>
    cases h
    rw [if_neg room]
    exact ⟨_, rfl, .cons hf hb.frames, hb.anchors, hb.root⟩

end Builder

/-- `R` relates the copies of nodes that it relates, and every way of writing to itself. -/
structure Copying.Related (R : Origin → Origin → Prop) (copy copy' : Copying) : Prop where
  refl : ∀ o, R o o
  copied : ∀ {value : String} {o o' : Origin} {endLine : Nat} (name : String) (p : Position),
    R o o' → R (copy (.scalar ⟨value, o, endLine⟩) name p)
      (copy' (.scalar ⟨value, o', endLine⟩) name p)

namespace Builder

variable {b b' c : Builder} {copy copy' : Copying} {lines : List String}

theorem step_documentStart_like (lines : List String) {p : Position} (hb : b.Like R b')
    (h : step lines b (.documentStart p) = .ok c) :
    ∃ c', step lines b' (.documentStart p) = .ok c' ∧ c.Like R c' := by
  obtain ⟨frames, anchors, root⟩ := b
  obtain ⟨frames', anchors', root'⟩ := b'
  obtain ⟨hframes, hanchors, hroot⟩ := hb
  cases hroot with
  | none =>
    cases h
    exact ⟨_, rfl, hframes, hanchors, .none⟩
  | some _ => cases h

/-- The collection that ends is finished, if there is one; the builder without it is alike. -/
theorem step_sequenceEnd_like (lines : List String) (hb : b.Like R b')
    (h : step lines b .sequenceEnd = .ok c) :
    ∃ c', step lines b' .sequenceEnd = .ok c' ∧ c.Like R c' := by
  have hb₀ := hb
  obtain ⟨frames, anchors, root⟩ := b
  obtain ⟨frames', anchors', root'⟩ := b'
  obtain ⟨hframes, hanchors, hroot⟩ := hb
  cases hframes with
  | nil =>
    cases h
    exact ⟨_, rfl, hb₀⟩
  | @cons f f' fs fs' hf hfs =>
    have closed : Like R ⟨fs, anchors, root⟩ ⟨fs', anchors', root'⟩ := ⟨hfs, hanchors, hroot⟩
    cases hf with
    | sequence hitems =>
      exact finish_like closed (.sequence (List.forall₂_reverse_iff.mpr hitems)) rfl h
    | mapping _ | mappingKey _ _ =>
      cases h
      exact ⟨_, rfl, hb₀⟩

@[inherit_doc step_sequenceEnd_like]
theorem step_mappingEnd_like (lines : List String) (hb : b.Like R b')
    (h : step lines b .mappingEnd = .ok c) :
    ∃ c', step lines b' .mappingEnd = .ok c' ∧ c.Like R c' := by
  have hb₀ := hb
  obtain ⟨frames, anchors, root⟩ := b
  obtain ⟨frames', anchors', root'⟩ := b'
  obtain ⟨hframes, hanchors, hroot⟩ := hb
  cases hframes with
  | nil =>
    cases h
    exact ⟨_, rfl, hb₀⟩
  | @cons f f' fs fs' hf hfs =>
    have closed : Like R ⟨fs, anchors, root⟩ ⟨fs', anchors', root'⟩ := ⟨hfs, hanchors, hroot⟩
    cases hf with
    | mapping hentries =>
      exact finish_like closed (.mapping (List.forall₂_reverse_iff.mpr hentries)) rfl h
    | mappingKey hentries _ =>
      exact finish_like closed (.mapping (List.forall₂_reverse_iff.mpr hentries)) rfl h
    | sequence _ =>
      cases h
      exact ⟨_, rfl, hb₀⟩

/-- One event keeps builders alike that copy in related ways. -/
theorem stepWith_like {e : Event} (hR : copy.Related R copy') (hb : b.Like R b')
    (h : stepWith copy lines b e = .ok c) :
    ∃ c', stepWith copy' lines b' e = .ok c' ∧ c.Like R c' := by
  cases e with
  | documentStart p => exact step_documentStart_like lines hb h
  | documentEnd =>
    cases h
    exact ⟨_, rfl, hb⟩
  | «alias» name p =>
    rw [stepWith] at h ⊢
    split at h
    · cases h
    next n found =>
      obtain ⟨n', found', hn⟩ := lookup_like hb.anchors found
      rw [found']
      refine attach_like hb ?_ h
      cases hn with
      | scalar ho => exact .scalar (hR.copied name p ho)
      | sequence hitems => exact .sequence hitems
      | mapping hentries => exact .mapping hentries
  | scalar value style anchor start stop =>
    exact finish_like hb (.scalar (hR.refl _)) rfl h
  | sequenceStart flow anchor start => exact openFrame_like hb (.sequence .nil) h
  | mappingStart flow anchor start => exact openFrame_like hb (.mapping .nil) h
  | sequenceEnd => exact step_sequenceEnd_like lines hb h
  | mappingEnd => exact step_mappingEnd_like lines hb h

theorem foldlM_stepWith_like {events : List Event} (hR : copy.Related R copy') (hb : b.Like R b')
    (h : events.foldlM (stepWith copy lines) b = .ok c) :
    ∃ c', events.foldlM (stepWith copy' lines) b' = .ok c' ∧ c.Like R c' := by
  induction events generalizing b b' with
  | nil =>
    cases h
    exact ⟨b', rfl, hb⟩
  | cons e rest ih =>
    rw [List.foldlM_cons] at h ⊢
    cases hs : stepWith copy lines b e with
    | error fault =>
      rw [hs] at h
      cases h
    | ok b₁ =>
      obtain ⟨b₁', hs', hb₁⟩ := stepWith_like hR hb hs
      rw [hs] at h
      rw [hs']
      exact ih hb₁ h

end Builder

/-- What loads with one way of copying loads with a related one, and the trees are alike. -/
theorem loadWith_like {copy copy' : Copying} (hR : copy.Related R copy') {text : String}
    {doc : Document} (h : loadWith copy text = .ok doc) :
    ∃ doc', loadWith copy' text = .ok doc' ∧ doc.text = text ∧ doc'.text = text ∧
      doc.root.Like R doc'.root := by
  unfold loadWith at h ⊢
  split at h
  next blank =>
    cases h
    rw [if_pos blank]
    exact ⟨_, rfl, rfl, rfl, .mapping .nil⟩
  next some_text =>
    rw [if_neg some_text]
    dsimp only at h ⊢
    split at h
    · cases h
    · cases h
    next b built fault =>
      cases h
      have start : Builder.Like R {} {} := ⟨.nil, .nil, .none⟩
      obtain ⟨b', built', hb⟩ := Builder.foldlM_stepWith_like hR start built
      rw [built', fault]
      refine ⟨_, rfl, rfl, rfl, ?_⟩
      have root : ∀ {x y : Option Node}, Option.Rel (Node.Like R) x y →
          (x.getD .empty).Like R (y.getD .empty) := by
        rintro _ _ (hn | _)
        · exact hn
        · exact .mapping .nil
      exact root hb.root

end FlowLint.Tree
