import FlowLint.Proofs.Deletes
import FlowLint.Proofs.StepByStep

/-! Guards of deletes. The rule reports a script if and only if some line deletes something that no
test whether something exists protects (`unguardedDeletes_exact`). A test protects what stands
behind it in its own line; it protects the later lines as well only if nothing is deleted in its own
line. -/

namespace FlowLint.Security

open FlowLint.Tree (Pointer.child)
open Pattern

/-! ### Tests before a delete -/

/-- A test in a text is still one if more follows. -/
theorem existenceCheck_occursIn_mono {s t : List Char} (occurs : existenceCheck.occursIn s)
    (begins : s <+: t) : existenceCheck.occursIn t := by
  obtain ⟨back, rfl⟩ := begins
  refine occursIn_of_within [] back ?_ occurs
  intro p q matched
  rcases matched with brackets | named
  · exact .inl (brackets.within (by decide) [] back)
  · obtain ⟨p', ⟨edge, same⟩, test⟩ := named
    rw [same] at test
    obtain ⟨r, name, -⟩ := matches_sequence_cons.mp test
    have there : p.after ≠ [] := by
      rw [(matches_text.mp name).after]
      exact List.cons_ne_nil _ _
    have still : (p.within [] back).atWordEdge = p.atWordEdge :=
      Spot.atWordEdge_within (.inl rfl) (.inr there)
    exact .inr ⟨_, ⟨still.trans edge, rfl⟩, test.within (by decide) [] back⟩

/-- Something that the line deletes has no test whether something exists before it in the line. -/
def DeletesBare (line : List Char) : Prop :=
  ∃ s p q, (Spot.start line).Reads s p ∧ destructive.Matches p q ∧
    existenceCheck.occursIn s = false

theorem DeletesBare.occursIn {line : List Char} (h : DeletesBare line) :
    destructive.occursIn line := by
  obtain ⟨s, p, q, reads, matched, -⟩ := h
  exact occursIn_iff.mpr ⟨s, p, q, reads, matched⟩

/-- What is deleted first decides: a test before it stands before all other deletes of the line. -/
theorem deletesBare_iff {line : List Char} {p r : Spot}
    (found : destructive.search line = some (p, r)) :
    DeletesBare line ↔ existenceCheck.occursIn (line.take p.offset) = false := by
  obtain ⟨s, reads, ⟨q, matched⟩, first⟩ := exists_of_search found
  have split : line = s ++ p.after := reads.after
  have offset : p.offset = s.length := reads.offset.trans (Nat.zero_add _)
  have before : line.take p.offset = s := by
    rw [split, offset]
    exact List.take_left
  rw [before]
  constructor
  · rintro ⟨s', p', q', reads', matched', bare⟩
    have shorter : s.length ≤ s'.length := first s' p' q' reads' matched'
    have split' : line = s' ++ p'.after := reads'.after
    have begins : s <+: s' :=
      List.prefix_of_prefix_length_le ⟨_, split.symm⟩ ⟨_, split'.symm⟩ shorter
    refine Bool.eq_false_iff.mpr ?_
    intro test
    rw [existenceCheck_occursIn_mono test begins] at bare
    cases bare
  · intro bare
    exact ⟨s, p, q, reads, matched, bare⟩

theorem not_deletesBare_of_search {line : List Char} (silent : destructive.search line = none) :
    ¬ DeletesBare line := by
  intro bare
  have deletes := bare.occursIn
  rw [Pattern.occursIn, silent] at deletes
  cases deletes

instance (line : List Char) : Decidable (DeletesBare line) :=
  match found : destructive.search line with
  | none => .isFalse (not_deletesBare_of_search found)
  | some (_, _) => decidable_of_iff' _ (deletesBare_iff found)

/-! ### Tests in earlier lines -/

/-- Some line deletes something that neither a test before it in the line nor a guard among the
lines before it protects. -/
def Unguarded (guards : List Char → Bool) (lines : List (List Char)) : Prop :=
  ∃ before line after, lines = before ++ line :: after ∧ DeletesBare line ∧
    ∀ l ∈ before, guards l = false

/-- The line tests whether something exists, and it deletes nothing. -/
def isGuard (line : List Char) : Bool := existenceCheck.occursIn line && !destructive.occursIn line

section

variable {guards : List Char → Bool} {line : List Char} {rest : List (List Char)}

theorem not_unguarded_nil : ¬ Unguarded guards [] := by
  rintro ⟨before, line, after, split, -⟩
  cases before <;> cases split

theorem unguarded_cons :
    Unguarded guards (line :: rest) ↔
      DeletesBare line ∨ guards line = false ∧ Unguarded guards rest := by
  constructor
  · rintro ⟨before, line', after, split, bare, unguarded⟩
    cases before with
    | nil =>
      obtain ⟨rfl, -⟩ := List.cons.inj split
      exact .inl bare
    | cons first before =>
      obtain ⟨rfl, rfl⟩ := List.cons.inj split
      obtain ⟨no_guard, unguarded⟩ := List.forall_mem_cons.mp unguarded
      exact .inr ⟨no_guard, before, line', after, rfl, bare, unguarded⟩
  · rintro (bare | ⟨no_guard, before, line', after, rfl, bare, unguarded⟩)
    · exact ⟨[], line, rest, rfl, bare, nofun⟩
    · exact ⟨line :: before, line', after, rfl, bare,
        List.forall_mem_cons.mpr ⟨no_guard, unguarded⟩⟩

instance decidableUnguarded : (lines : List (List Char)) → Decidable (Unguarded guards lines)
  | [] => .isFalse not_unguarded_nil
  | _ :: rest =>
    have := decidableUnguarded rest
    decidable_of_iff' _ unguarded_cons

end

/-- The flag of the loop tells whether a guard stands before the lines that are left. -/
theorem isSome_unguardedDelete?_iff (guarded : Bool) (lines : List (List Char)) :
    (unguardedDelete? guarded lines).isSome ↔ guarded = false ∧ Unguarded isGuard lines := by
  induction lines generalizing guarded with
  | nil => simp [unguardedDelete?, not_unguarded_nil]
  | cons line rest ih =>
    rw [unguarded_cons, unguardedDelete?]
    cases found : destructive.search line with
    | none =>
      have silent : destructive.occursIn line = false := by
        rw [Pattern.occursIn, found]
        rfl
      have guard : isGuard line = existenceCheck.occursIn line := by simp [isGuard, silent]
      show (unguardedDelete? (guarded || existenceCheck.occursIn line) rest).isSome ↔ _
      rw [ih, guard, Bool.or_eq_false_iff, and_assoc]
      simp [not_deletesBare_of_search found]
    | some bounds =>
      obtain ⟨p, r⟩ := bounds
      have deletes : destructive.occursIn line = true := by
        rw [Pattern.occursIn, found]
        rfl
      have no_guard : isGuard line = false := by simp [isGuard, deletes]
      show (if guarded || existenceCheck.occursIn (line.take p.offset) then
        unguardedDelete? guarded rest else some (between p r)).isSome ↔ _
      rw [deletesBare_iff found]
      cases guarded with
      | true => simp [ih]
      | false =>
        cases existenceCheck.occursIn (line.take p.offset) <;> simp [ih, no_guard]

/-! ### If every test protected all later lines -/

/-- A test protects more if it does so wherever it stands. -/
theorem Unguarded.of_occursIn {lines : List (List Char)}
    (h : Unguarded existenceCheck.occursIn lines) : Unguarded isGuard lines := by
  obtain ⟨before, line, after, split, bare, unguarded⟩ := h
  refine ⟨before, line, after, split, bare, ?_⟩
  intro l hl
  rw [isGuard, unguarded l hl, Bool.false_and]

/-- What else is unguarded stands behind a line that deletes something behind a test. -/
theorem Unguarded.occursIn_or {lines : List (List Char)} (h : Unguarded isGuard lines) :
    Unguarded existenceCheck.occursIn lines ∨
      ∃ before line after, lines = before ++ line :: after ∧ destructive.occursIn line ∧
        ¬ DeletesBare line ∧ Unguarded isGuard after := by
  induction lines with
  | nil => exact absurd h not_unguarded_nil
  | cons line rest ih =>
    by_cases bare : DeletesBare line
    · exact .inl (unguarded_cons.mpr (.inl bare))
    · obtain ⟨no_guard, later⟩ := (unguarded_cons.mp h).resolve_left bare
      cases test : existenceCheck.occursIn line with
      | true =>
        have deletes : destructive.occursIn line = true := by simpa [isGuard, test] using no_guard
        exact .inr ⟨[], line, rest, rfl, deletes, bare, later⟩
      | false =>
        rcases ih later with unguarded | ⟨before, line', after, rfl, behind⟩
        · exact .inl (unguarded_cons.mpr (.inr ⟨test, unguarded⟩))
        · exact .inr ⟨line :: before, line', after, rfl, behind⟩

/-! ### The rule -/

section

variable {doc : Tree.Document} {x : Job × Step} {run : Tree.Scalar}

theorem findingsAt_deleteRule (distinct : doc.root.All Tree.Node.HasDistinctChildren)
    (hx : x ∈ (Workflow.ofDocument doc).steps) (hrun : x.2.run = some run)
    (stops : x.2.continueOnError = false) (s : Settings) :
    ((∃ f, deleteRule.findingsAt (.ofDocument doc) s (Pointer.child x.2.path "run") = [f]) ↔
      (unguardedDelete? false (Script.logicalLineChars run.value)).isSome) ∧
    (deleteRule.findingsAt (.ofDocument doc) s (Pointer.child x.2.path "run") = [] ↔
      ¬ (unguardedDelete? false (Script.logicalLineChars run.value)).isSome) := by
  have at_step := Rule.findingsAt_step_iff distinct (r := deleteRule) (s := s) "run" rfl
    (by
      rintro ⟨j, st⟩ d h
      simp only at h
      split at h
      next => cases h
      next =>
        obtain ⟨command, -, rfl⟩ := Option.map_eq_some_iff.mp h
        rfl) hx
  simpa only [stops, hrun, Bool.false_eq_true, if_false, Option.bind_some, Option.isSome_map]
    using at_step

/-- The script of a step whose failure stops its job has one finding if some line deletes something
that neither a test before it in the line nor a guard among the earlier lines protects, and none
otherwise. An earlier line with a test is a guard if it deletes nothing; if all of them were guards,
the findings would be the same but for deletes behind a line that itself deletes behind a test. -/
theorem unguardedDeletes_exact {text : String} (loaded : Tree.load text = .ok doc)
    (hx : x ∈ (Workflow.ofDocument doc).steps) (hrun : x.2.run = some run)
    (stops : x.2.continueOnError = false) (s : Settings) :
    Catalog.rule? "destructive-command" = some deleteRule ∧
    ((∃ f, deleteRule.findingsAt (.ofDocument doc) s (Pointer.child x.2.path "run") = [f]) ↔
      Unguarded isGuard (Script.logicalLineChars run.value)) ∧
    (deleteRule.findingsAt (.ofDocument doc) s (Pointer.child x.2.path "run") = [] ↔
      ¬ Unguarded isGuard (Script.logicalLineChars run.value)) ∧
    (Unguarded existenceCheck.occursIn (Script.logicalLineChars run.value) →
      Unguarded isGuard (Script.logicalLineChars run.value)) ∧
    (Unguarded isGuard (Script.logicalLineChars run.value) →
      Unguarded existenceCheck.occursIn (Script.logicalLineChars run.value) ∨
        ∃ before line after, Script.logicalLineChars run.value = before ++ line :: after ∧
          destructive.occursIn line ∧ ¬ DeletesBare line ∧ Unguarded isGuard after) := by
  have loop : (unguardedDelete? false (Script.logicalLineChars run.value)).isSome ↔
      Unguarded isGuard (Script.logicalLineChars run.value) := by
    simp [isSome_unguardedDelete?_iff]
  obtain ⟨one, none⟩ :=
    findingsAt_deleteRule (Tree.load_distinct loaded) hx hrun stops s
  rw [loop] at one none
  exact ⟨rule?_destructiveCommand, one, none, Unguarded.of_occursIn, Unguarded.occursIn_or⟩

end

/-- A step that deletes one tree behind a test and then another one. -/
def mixedText : String :=
  "jobs:\n  a:\n    steps:\n    - run: |\n        [ -d x ] && rm -rf x\n        rm -rf y\n"

def mixedLines : List (List Char) := ["[ -d x ] && rm -rf x".toList, "rm -rf y".toList]

theorem exists_mixedStep : ∃ doc x run, Tree.load mixedText = .ok doc ∧
    x ∈ (Workflow.ofDocument doc).steps ∧ x.2.run = some run ∧ x.2.continueOnError = false ∧
    Script.logicalLineChars run.value = mixedLines := by
  obtain ⟨doc, x, loaded, hx, found⟩ := Workflow.exists_step mixedText
    (f := fun x => (x.2.continueOnError, x.2.run.map fun run => Script.logicalLineChars run.value))
    (b := (false, some mixedLines)) (by decide +kernel)
  obtain ⟨stops, found⟩ := Prod.mk.inj found
  obtain ⟨run, hrun, lines⟩ := Option.map_eq_some_iff.mp found
  exact ⟨doc, x, run, loaded, hx, hrun, stops, lines⟩

theorem unguardedDeletes_exact_mixed : ∃ doc x run f, Tree.load mixedText = .ok doc ∧
    x ∈ (Workflow.ofDocument doc).steps ∧ x.2.run = some run ∧ x.2.continueOnError = false ∧
    deleteRule.findingsAt (.ofDocument doc) {} (Pointer.child x.2.path "run") = [f] := by
  obtain ⟨doc, x, run, loaded, hx, hrun, stops, lines⟩ := exists_mixedStep
  have unguarded : Unguarded isGuard mixedLines := by decide +kernel
  obtain ⟨f, found⟩ :=
    (unguardedDeletes_exact loaded hx hrun stops {}).2.1.mpr (lines ▸ unguarded)
  exact ⟨doc, x, run, f, loaded, hx, hrun, stops, found⟩

/-- A test does not protect the later lines if something is deleted in its own line. -/
theorem not_forall_test_protects : ¬ ∀ text doc, Tree.load text = .ok doc →
    ∀ x ∈ (Workflow.ofDocument doc).steps, ∀ run, x.2.run = some run →
      x.2.continueOnError = false → ∀ s : Settings,
      ((∃ f, deleteRule.findingsAt (.ofDocument doc) s (Pointer.child x.2.path "run") = [f]) ↔
        Unguarded existenceCheck.occursIn (Script.logicalLineChars run.value)) := by
  intro protects
  obtain ⟨doc, x, run, loaded, hx, hrun, stops, lines⟩ := exists_mixedStep
  have reported : (unguardedDelete? false mixedLines).isSome := by decide +kernel
  have guarded : ¬ Unguarded existenceCheck.occursIn mixedLines := by decide +kernel
  rw [← lines] at reported guarded
  have one := (findingsAt_deleteRule (Tree.load_distinct loaded) hx hrun stops {}).1.mpr reported
  exact guarded ((protects _ doc loaded x hx run hrun stops {}).mp one)

end FlowLint.Security
