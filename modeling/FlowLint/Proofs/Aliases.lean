import FlowLint.Proofs.Bare.Security
import FlowLint.Proofs.Copying
import FlowLint.Proofs.Table

/-! Aliases and the rules about security. A scalar that an alias stands for is judged as if it had
been written in quotes in the place of the alias; so it is judged as it would be in its own style
unless it is no value there, or is a block whose style a rule asks for
(`Security.evaluate_alias_eq`). -/

namespace FlowLint

namespace Tree

variable {R : Origin → Origin → Prop} {blocks : Bool}

/-- Scalars that are alike and have the same pointer in the two lists are the same when bare. -/
def SameBare (R : Origin → Origin → Prop) (blocks : Bool) (l l' : List (String × Node)) : Prop :=
  ∀ p s s', (p, Node.scalar s) ∈ l → (p, Node.scalar s') ∈ l' → s.value = s'.value →
    R s.origin s'.origin → s.bare blocks = s'.bare blocks

theorem SameBare.mono {l l' k k' : List (String × Node)} (h : SameBare R blocks l l')
    (hl : k ⊆ l) (hl' : k' ⊆ l') : SameBare R blocks k k' :=
  fun p s s' hs hs' => h p s s' (hl hs) (hl' hs')

mutual

/-- Trees that are alike are the same when bare, if this is so of their scalars. -/
theorem Node.bare_eq_of_like (lines : ∀ o o', R o o' → o.line = o'.line) {n n' : Node}
    (h : n.Like R n') (p : String)
    (same : SameBare R blocks (n.walk p) (n'.walk p)) : n.bare blocks = n'.bare blocks := by
  cases n with
  | scalar s =>
    cases h with
    | scalar ho =>
      have scalar_eq := same p _ _ (Node.mem_walk_self _ p) (Node.mem_walk_self _ p) rfl ho
      exact congrArg Node.scalar scalar_eq
  | sequence o items =>
    cases h with
    | sequence hitems =>
      rw [Node.walk, Node.walk] at same
      have items_eq := bareItems_eq_of_like lines hitems p 0
        (same.mono (List.subset_cons_self _ _) (List.subset_cons_self _ _))
      rw [Node.bare, Node.bare, items_eq]
  | mapping o entries =>
    cases h with
    | mapping hentries =>
      rw [Node.walk, Node.walk] at same
      have entries_eq := bareEntries_eq_of_like lines hentries p
        (same.mono (List.subset_cons_self _ _) (List.subset_cons_self _ _))
      rw [Node.bare, Node.bare, entries_eq]

theorem bareItems_eq_of_like (lines : ∀ o o', R o o' → o.line = o'.line)
    {items items' : List Node} (h : List.Forall₂ (Node.Like R) items items') (p : String)
    (first : Nat)
    (same : SameBare R blocks (walkItems p first items) (walkItems p first items')) :
    bareItems blocks items = bareItems blocks items' := by
  cases items with
  | nil => cases h; rfl
  | cons n rest =>
    cases h with
    | cons hn hrest =>
      rw [walkItems, walkItems] at same
      rw [bareItems, bareItems,
        Node.bare_eq_of_like lines hn _ (same.mono (List.subset_append_left _ _)
          (List.subset_append_left _ _)),
        bareItems_eq_of_like lines hrest p (first + 1) (same.mono (List.subset_append_right _ _)
          (List.subset_append_right _ _))]

theorem bareEntries_eq_of_like (lines : ∀ o o', R o o' → o.line = o'.line)
    {entries entries' : List (Scalar × Node)}
    (h : List.Forall₂ (EntryLike R) entries entries') (p : String)
    (same : SameBare R blocks (walkEntries p entries) (walkEntries p entries')) :
    bareEntries blocks entries = bareEntries blocks entries' := by
  cases entries with
  | nil => cases h; rfl
  | cons e rest =>
    obtain ⟨key, n⟩ := e
    cases h with
    | cons he hrest =>
      cases he with
      | mk ho hn =>
        rw [walkEntries, walkEntries] at same
        have key_eq := lines _ _ ho
        rw [bareEntries, bareEntries,
          Node.bare_eq_of_like lines hn _ (same.mono (List.subset_append_left _ _)
            (List.subset_append_left _ _)),
          bareEntries_eq_of_like lines hrest p (same.mono (List.subset_append_right _ _)
            (List.subset_append_right _ _))]
        simp only [Scalar.bareKey, key_eq]

end

/-- How a copy and what it is compared with are written: at the same line, and alike unless the copy
stands for an alias; the other is then written as `written` says. -/
def Copied (written : Style → Prop) (o o' : Origin) : Prop :=
  o.line = o'.line ∧ (o = o' ∨ o.style = .alias ∧ written o'.style)

theorem Copied.line {written : Style → Prop} (o o' : Origin) (h : Copied written o o') :
    o.line = o'.line := h.1

namespace Copying

theorem related_inPlace : marked.Related (Copied fun _ => True) inPlace where
  refl _ := ⟨rfl, .inl rfl⟩
  copied _ _ _ := ⟨rfl, .inr ⟨rfl, trivial⟩⟩

theorem related_quoted : marked.Related (Copied (· = .quoted)) quoted where
  refl _ := ⟨rfl, .inl rfl⟩
  copied _ _ _ := ⟨rfl, .inr ⟨rfl, rfl⟩⟩

end Copying

namespace Scalar

variable {s s' : Scalar}

theorem isNull_of_style (h : s.origin.style ≠ .plain) : s.isNull = false := by
  simp [isNull, h]

theorem isBlock_of_style (literal : s.origin.style ≠ .blockLiteral)
    (folded : s.origin.style ≠ .blockFolded) : s.isBlock = false := by
  simp [isBlock, literal, folded]

/-- A bare scalar is its value, its line, whether it is no value and whether it is a block. -/
theorem bare_congr (value : s.value = s'.value) (line : s.origin.line = s'.origin.line)
    (null : s.isNull = s'.isNull) (block : (blocks && s.isBlock) = (blocks && s'.isBlock)) :
    s.bare blocks = s'.bare blocks := by
  simp only [bare, value, line, null, block]

end Scalar

/-- Where the second tree has a scalar `s` for which `P s` holds, the first has no alias. -/
def CopiesNo (P : Scalar → Bool) (n n' : Node) : Prop :=
  ∀ p s s', (p, Node.scalar s) ∈ n.walk "" → (p, Node.scalar s') ∈ n'.walk "" →
    s.origin.style = .alias → P s' = false

/-- Where the first tree has an alias, a scalar of the second that is written as `written` says is a
value and, where blocks count, no block. -/
def CopiesValues (blocks : Bool) (written : Style → Prop) (n n' : Node) : Prop :=
  ∀ p s s', (p, Node.scalar s) ∈ n.walk "" → (p, Node.scalar s') ∈ n'.walk "" →
    s.origin.style = .alias → written s'.origin.style →
      s'.isNull = false ∧ (blocks && s'.isBlock) = false

theorem CopiesValues.sameBare {written : Style → Prop} {n n' : Node}
    (values : CopiesValues blocks written n n') :
    SameBare (Copied written) blocks (n.walk "") (n'.walk "") := by
  intro p s s' hs hs' value h
  obtain ⟨line, same | ⟨copy, style⟩⟩ := h
  · apply Scalar.bare_congr value line
    · rw [Scalar.isNull, Scalar.isNull, same, value]
    · rw [Scalar.isBlock, Scalar.isBlock, same]
  · obtain ⟨null, block⟩ := values p s s' hs hs' copy style
    have copy_null : s.isNull = false := Scalar.isNull_of_style (by simp [copy])
    have copy_block : s.isBlock = false :=
      Scalar.isBlock_of_style (by simp [copy]) (by simp [copy])
    apply Scalar.bare_congr value line
    · rw [copy_null, null]
    · rw [copy_block, block, Bool.and_false]

end Tree

open FlowLint.Tree

/-- A rule that sees no more than the bare tree does not see that a value was copied. -/
theorem Rule.SeesBare.evaluate_copied {r : Rule} {blocks : Bool} (sees : r.SeesBare blocks)
    {written : Style → Prop} {doc doc' : Document} (text : doc.text = doc'.text)
    (alike : doc.root.Like (Copied written) doc'.root)
    (values : CopiesValues blocks written doc.root doc'.root) (s : Settings) :
    r.evaluate (.ofDocument doc) s = r.evaluate (.ofDocument doc') s := by
  have root : doc.root.bare blocks = doc'.root.bare blocks :=
    Node.bare_eq_of_like Copied.line alike "" values.sameBare
  have bare : doc.bare blocks = doc'.bare blocks := by
    simp only [Document.bare, text, root]
  exact sees.evaluate_eq bare s

namespace Security

/-- To the rules about security, a scalar that an alias stands for is the quoted scalar with the
same text in its place. So it is to them what it is in its own style, unless it is no value in that
style; the rule about strict mode takes it for no block. -/
theorem evaluate_alias_eq {text : String} {doc : Document} (h : load text = .ok doc)
    (s : Settings) :
    ∃ quoted inPlace, loadWith .quoted text = .ok quoted ∧ loadWith .inPlace text = .ok inPlace ∧
      (∀ r ∈ rules, r.evaluate (.ofDocument doc) s = r.evaluate (.ofDocument quoted) s) ∧
      (CopiesNo Scalar.isNull doc.root inPlace.root →
        ∀ r ∈ rules,
          r.id ≠ "shell-strict-mode" ∨ CopiesNo Scalar.isBlock doc.root inPlace.root →
          r.evaluate (.ofDocument doc) s = r.evaluate (.ofDocument inPlace) s) := by
  rw [← loadWith_marked] at h
  obtain ⟨quoted, hquoted, text_eq, quoted_text, like_quoted⟩ :=
    loadWith_like Copying.related_quoted h
  obtain ⟨inPlace, hinPlace, -, inPlace_text, like_inPlace⟩ :=
    loadWith_like Copying.related_inPlace h
  refine ⟨quoted, inPlace, hquoted, hinPlace, fun r hr => ?_, fun no_null r hr other => ?_⟩
  · have sees : r.SeesBare true := rules_seeBare r hr (.inl rfl)
    apply sees.evaluate_copied (text_eq.trans quoted_text.symm) like_quoted
    intro p c c' hc hc' copy style
    have no_block : c'.isBlock = false :=
      Scalar.isBlock_of_style (by simp [style]) (by simp [style])
    exact ⟨Scalar.isNull_of_style (by simp [style]), no_block⟩
  · -- The rule about strict mode is the only one to which it matters that no block is copied.
    have same_text : doc.text = inPlace.text := text_eq.trans inPlace_text.symm
    rcases other with other | no_block
    · have sees : r.SeesBare false := rules_seeBare r hr (.inr other)
      apply sees.evaluate_copied same_text like_inPlace
      intro p c c' hc hc' copy _
      exact ⟨no_null p c c' hc hc' copy, rfl⟩
    · have sees : r.SeesBare true := rules_seeBare r hr (.inl rfl)
      apply sees.evaluate_copied same_text like_inPlace
      intro p c c' hc hc' copy _
      exact ⟨no_null p c c' hc hc' copy, no_block p c c' hc hc' copy⟩

/-- Two jobs with one runner, of which the second names it by an alias: both are reported, as they
are when the name is written twice. -/
theorem evaluate_alias_eq_runner : ∃ doc inPlace : Document,
    load "jobs:\n  a:\n    runs-on: &r ubuntu-latest\n  b:\n    runs-on: *r\n" = .ok doc ∧
    loadWith .inPlace "jobs:\n  a:\n    runs-on: &r ubuntu-latest\n  b:\n    runs-on: *r\n" =
      .ok inPlace ∧
    (runnerPinning (.ofDocument doc) {}).map (·.location) = ["/jobs/a/runs-on", "/jobs/b/runs-on"] ∧
    ∀ r ∈ rules, r.evaluate (.ofDocument doc) {} = r.evaluate (.ofDocument inPlace) {} := by
  obtain ⟨doc, loaded, found⟩ := exists_of_toOption (show
    (load "jobs:\n  a:\n    runs-on: &r ubuntu-latest\n  b:\n    runs-on: *r\n"
      ).toOption.map (fun doc => (runnerPinning (.ofDocument doc) {}).map (·.location)) =
      some ["/jobs/a/runs-on", "/jobs/b/runs-on"] by decide +kernel)
  obtain ⟨inPlace, copied, values⟩ := exists_of_toOption (show
    (loadWith .inPlace "jobs:\n  a:\n    runs-on: &r ubuntu-latest\n  b:\n    runs-on: *r\n"
      ).toOption.map (fun doc => (doc.root.walk "").all fun x =>
        x.2.scalar?.all fun c => !c.isNull && !c.isBlock) = some true by decide +kernel)
  obtain ⟨-, inPlace', -, copied', -, same⟩ := evaluate_alias_eq loaded {}
  obtain rfl : inPlace = inPlace' := Except.ok.inj (copied.symm.trans copied')
  have plain (p : String) (c : Scalar) (hc : (p, Node.scalar c) ∈ inPlace.root.walk "") :
      c.isNull = false ∧ c.isBlock = false := by
    have value := List.all_eq_true.mp values _ hc
    simpa [Node.scalar?] using value
  refine ⟨doc, inPlace, loaded, copied, found, fun r hr => same ?_ r hr (.inr ?_)⟩
  · intro p _ c _ hc _
    exact (plain p c hc).1
  · intro p _ c _ hc _
    exact (plain p c hc).2

/-- The rules find the same, whether the text has aliases or what they stand for in their place. -/
def AliasesTransparent (text : String) : Prop :=
  ∀ doc inPlace s, load text = .ok doc → loadWith .inPlace text = .ok inPlace →
    ∀ r ∈ rules, (r.evaluate (.ofDocument doc) s).findings =
      (r.evaluate (.ofDocument inPlace) s).findings

theorem not_aliasesTransparent {text : String} {i : Nat} {r : Rule} (hr : rules[i]? = some r)
    (differ : ((load text).toOption.bind fun doc =>
      (loadWith .inPlace text).toOption.map fun inPlace =>
        (r.evaluate (.ofDocument doc) {}).findings.length ==
          (r.evaluate (.ofDocument inPlace) {}).findings.length) = some false) :
    ¬ AliasesTransparent text := by
  intro transparent
  obtain ⟨doc, loaded, copied⟩ := Option.bind_eq_some_iff.mp differ
  obtain ⟨inPlace, copied, lengths⟩ := Option.map_eq_some_iff.mp copied
  have same := transparent doc inPlace {} (eq_ok_of_toOption loaded)
    (eq_ok_of_toOption copied) r (List.mem_of_getElem? hr)
  rw [same, beq_self_eq_true] at lengths
  cases lengths

/-- A script that is an alias of a block is not asked for strict mode, and a time limit that is an
alias of no value counts as a time limit. -/
theorem not_aliasesTransparent_block_null :
    ¬ AliasesTransparent
      "jobs:\n  a:\n    steps:\n      - run: &s |\n          a\n          b\n      - run: *s\n" ∧
    ¬ AliasesTransparent
      "env:\n  X: &n null\njobs:\n  a:\n    timeout-minutes: *n\n" := by
  have strictMode : rules[5]? = some _ := rfl
  have timeout : rules[6]? = some _ := rfl
  exact ⟨not_aliasesTransparent strictMode (by decide +kernel),
    not_aliasesTransparent timeout (by decide +kernel)⟩

end Security

end FlowLint
