import FlowLint.Proofs.ExpressionPieces
import FlowLint.Proofs.Matching
import FlowLint.Proofs.StepByStep

/-! Untrusted input in scripts. An expression is cut out of a script at the first `\x7d\x7d`, and
so none hides another: behind every `$\x7b\x7b`, what stands before the next `\x7d\x7d` is the end
of an expression (`exists_mem_inners_iff`). The rule reports a script if and only if untrusted input
stands there in full (`untrustedInputs_exact`); what hides it is a `\x7d\x7d` in a quoted text of
the same expression, and nothing else. -/

namespace FlowLint

/-! ### Where expressions end -/

namespace Expression

variable {s t w rest inner : List Char}

/-- The text before the first `\x7d\x7d` outside of single quotes; the flag tells that the text
begins within them. -/
def untilUnquotedClosing : Bool → List Char → Option (List Char)
  | _, [] => none
  | quoted, c :: s =>
    if !quoted && closing.isPrefixOf (c :: s) then some []
    else (untilUnquotedClosing (quoted != (c == '\'')) s).map (c :: ·)

/-- An expression as the language of expressions delimits it, begun anywhere in a text. -/
def Interpolates (s inner : List Char) : Prop :=
  ∃ front rest, s = front ++ (opening ++ rest) ∧ untilUnquotedClosing false rest = some inner

/-- The first `\x7d\x7d` of all does not come later than the first outside of quotes, and it comes
earlier only if it is in quotes. -/
theorem exists_untilClosing {quoted : Bool} (h : untilUnquotedClosing quoted s = some inner) :
    ∃ seen, untilClosing s = some seen ∧ seen <+: inner ∧
      (¬ closing <:+: inner → seen = inner) := by
  induction s generalizing quoted inner with
  | nil => cases h
  | cons c s ih =>
    rw [untilUnquotedClosing] at h
    by_cases ends : closing <+: c :: s
    · refine ⟨[], untilClosing_of_closing ends, List.nil_prefix, ?_⟩
      intro other
      obtain ⟨rest, split⟩ := ends
      obtain ⟨rfl, rfl⟩ := List.cons.inj split
      cases quoted with
      | false => exact Option.some.inj h
      | true =>
        -- Within quotes both braces are passed over.
        obtain ⟨behind, found, rfl⟩ := Option.map_eq_some_iff.mp h
        obtain ⟨inner', -, rfl⟩ := Option.map_eq_some_iff.mp found
        exact absurd ⟨[], inner', rfl⟩ other
    · have open_still : (!quoted && closing.isPrefixOf (c :: s)) = false := by
        rw [Bool.and_eq_false_iff]
        exact .inr (Bool.eq_false_iff.mpr fun h => ends (List.isPrefixOf_iff_prefix.mp h))
      rw [open_still] at h
      obtain ⟨inner', found, rfl⟩ := Option.map_eq_some_iff.mp h
      obtain ⟨seen, first, begins, whole⟩ := ih found
      refine ⟨c :: seen, ?_, List.cons_prefix_cons.mpr ⟨rfl, begins⟩, ?_⟩
      · rw [untilClosing_cons ends, first]
        rfl
      · intro other
        rw [whole fun within => other (within.trans (List.infix_cons List.infix_rfl))]

/-! ### What an expression hides -/

/-- Behind some text and an opening, the first end is the one behind the opening, or it stands in
the text. -/
theorem untilClosing_append_opening (w : List Char) (h : untilClosing rest = some inner) :
    untilClosing (w ++ (opening ++ rest)) = some (w ++ (opening ++ inner)) ∨
      ∃ a b, w = a ++ (closing ++ b) ∧ untilClosing (w ++ (opening ++ rest)) = some a := by
  induction w with
  | nil =>
    have step {c : Char} (other : c ≠ '\x7d') (s : List Char) : ¬ closing <+: c :: s := by
      rintro ⟨t, split⟩
      exact other (List.cons.inj split).1.symm
    left
    show untilClosing ('$' :: '\x7b' :: '\x7b' :: rest) = some ('$' :: '\x7b' :: '\x7b' :: inner)
    rw [untilClosing_cons (step (by decide) _), untilClosing_cons (step (by decide) _),
      untilClosing_cons (step (by decide) _), h]
    rfl
  | cons c w ih =>
    by_cases ends : closing <+: c :: (w ++ (opening ++ rest))
    · right
      obtain ⟨t, split⟩ := ends
      obtain ⟨rfl, behind⟩ := List.cons.inj split
      cases w with
      | nil =>
        have brace : '\x7d' = '$' := (List.cons.inj behind).1
        cases brace
      | cons d w =>
        obtain ⟨rfl, -⟩ := List.cons.inj behind
        exact ⟨[], w, rfl, rfl⟩
    · rw [List.cons_append, untilClosing_cons ends]
      rcases ih with here | ⟨a, b, rfl, found⟩
      · left
        rw [here]
        rfl
      · right
        refine ⟨c :: a, b, rfl, ?_⟩
        rw [found]
        rfl

/-- Two openings do not overlap. -/
theorem eq_nil_or_of_opening {front : List Char} (h : opening ++ t = front ++ (opening ++ rest)) :
    (front = [] ∧ t = rest) ∨ ∃ w, front = opening ++ w ∧ t = w ++ (opening ++ rest) := by
  rcases front with _ | ⟨a, _ | ⟨b, _ | ⟨c, w⟩⟩⟩
  · exact .inl ⟨rfl, List.append_cancel_left h⟩
  · have brace : '\x7b' = '$' := (List.cons.inj (List.cons.inj h).2).1
    cases brace
  · have brace : '\x7b' = '$' := (List.cons.inj (List.cons.inj (List.cons.inj h).2).2).1
    cases brace
  · simp only [opening, List.cons_append, List.nil_append, List.cons.injEq] at h
    obtain ⟨rfl, rfl, rfl, behind⟩ := h
    exact .inr ⟨w, rfl, behind⟩

/-- What stands behind an opening, up to the next end, is the end of an expression. -/
theorem IsCut.exists_suffix {ps : List Piece} (cut : IsCut ps) {front : List Char}
    (h : ps.flatMap Piece.chars = front ++ (opening ++ rest))
    (first : untilClosing rest = some inner) :
    ∃ w, .expression (w ++ inner) ∈ ps := by
  induction cut generalizing front with
  | nil => simp [opening] at h
  | @char c ps none cut ih =>
    rw [List.flatMap_cons, Piece.chars, List.singleton_append] at h
    cases front with
    | nil =>
      rw [h, List.nil_append, inner?_append first] at none
      cases none
    | cons d front =>
      obtain ⟨w, hw⟩ := ih (List.cons.inj h).2
      exact ⟨w, List.mem_cons_of_mem _ hw⟩
  | @expression found ps ends cut ih =>
    rw [List.flatMap_cons, Piece.chars, List.append_assoc, List.append_assoc] at h
    rcases eq_nil_or_of_opening h with ⟨-, same⟩ | ⟨w, -, same⟩
    · rw [same, first] at ends
      exact ⟨[], by simp [Option.some.inj ends]⟩
    · rw [same] at ends
      rcases untilClosing_append_opening w first with here | ⟨a, b, split, before⟩
      · rw [here] at ends
        refine ⟨w ++ opening, ?_⟩
        rw [List.append_assoc, Option.some.inj ends]
        exact List.mem_cons_self
      · -- The expression has ended before; the opening stands behind it.
        rw [before] at ends
        cases ends
        rw [split, List.append_assoc, List.append_assoc] at same
        have behind := List.append_cancel_left (List.append_cancel_left same)
        obtain ⟨w', hw'⟩ := ih behind
        exact ⟨w', List.mem_cons_of_mem _ hw'⟩

/-- An expression stands behind an opening, up to the next end. -/
theorem IsCut.exists_of_mem {ps : List Piece} (cut : IsCut ps) (h : .expression inner ∈ ps) :
    ∃ front rest, ps.flatMap Piece.chars = front ++ (opening ++ rest) ∧
      untilClosing rest = some inner := by
  induction cut with
  | nil => cases h
  | @char c ps _ _ ih =>
    obtain ⟨front, rest, split, first⟩ := ih (by simpa using h)
    exact ⟨c :: front, rest, by rw [List.flatMap_cons, split]; rfl, first⟩
  | @expression found ps ends _ ih =>
    rcases List.mem_cons.mp h with same | later
    · cases same
      exact ⟨[], _, by rw [List.flatMap_cons, Piece.chars]; simp, ends⟩
    · obtain ⟨front, rest, split, first⟩ := ih later
      refine ⟨(Piece.expression found).chars ++ front, rest, ?_, first⟩
      rw [List.flatMap_cons, split, List.append_assoc]

/-- What holds of some expression, if it holds of a text as soon as of an end of it, holds of what
stands between some opening and the next end. -/
theorem exists_mem_inners_iff {P : List Char → Prop}
    (longer : ∀ w inner, P inner → P (w ++ inner)) :
    (∃ inner ∈ inners s, P inner) ↔
      ∃ front rest inner, s = front ++ (opening ++ rest) ∧ untilClosing rest = some inner ∧
        P inner := by
  obtain ⟨cut, whole⟩ := exists_isCut s
  have mem {inner : List Char} : inner ∈ inners s ↔ .expression inner ∈ pieces s := by
    rw [inners, List.mem_filterMap]
    constructor
    · rintro ⟨p, hp, same⟩
      cases p with
      | char c => cases same
      | expression found => exact Option.some.inj same ▸ hp
    · exact fun h => ⟨_, h, rfl⟩
  constructor
  · rintro ⟨inner, h, holds⟩
    obtain ⟨front, rest, split, first⟩ := cut.exists_of_mem (mem.mp h)
    exact ⟨front, rest, inner, whole.symm.trans split, first, holds⟩
  · rintro ⟨front, rest, inner, split, first, holds⟩
    obtain ⟨w, h⟩ := cut.exists_suffix (whole.trans split) first
    exact ⟨w ++ inner, mem.mpr h, longer w inner holds⟩

end Expression

/-! ### Untrusted input -/

namespace Security

open FlowLint.Tree (Pointer.child)
open Pattern
open Expression (opening closing untilClosing inners Interpolates)

section

variable {p q : Spot} (front : List Char)

/-- Behind a character it makes no difference to the edge of a word what stands further in front. -/
theorem matches_wordEdge_within (h : wordEdge.Matches p q) (there : p.before ≠ []) :
    wordEdge.Matches (p.within front []) (q.within front []) := by
  obtain ⟨edge, rfl⟩ := h
  have still : (q.within front []).atWordEdge = q.atWordEdge :=
    Spot.atWordEdge_within (.inr there) (.inl rfl)
  exact ⟨still.trans edge, rfl⟩

/-- Untrusted input in a text is still there if more stands before it. -/
theorem untrustedInput_occursIn_append {s : List Char} (occurs : untrustedInput.occursIn s) :
    untrustedInput.occursIn (front ++ s) := by
  rw [← List.append_nil s]
  refine occursIn_of_within front [] ?_ occurs
  intro p q matched
  rcases matched with headRef | event
  · obtain ⟨r, name, edge⟩ := matches_sequence_cons.mp headRef
    have behind := (matches_text.mp name).before_ne_nil (by decide)
    exact .inl (matches_sequence_cons.mpr
      ⟨_, name.within (by decide) front [], matches_wordEdge_within front edge behind⟩)
  · obtain ⟨r₁, name, event⟩ := matches_sequence_cons.mp event
    obtain ⟨r₂, path, event⟩ := matches_sequence_cons.mp event
    obtain ⟨r₃, edge, event⟩ := matches_sequence_cons.mp event
    obtain ⟨r₄, field, last⟩ := matches_sequence_cons.mp event
    have behind₁ := (matches_text.mp name).before_ne_nil (by decide)
    have behind₂ := path.before_ne_nil (by decide) behind₁
    have behind₃ := edge.before_ne_nil rfl behind₂
    have behind₄ := field.before_ne_nil (by decide) behind₃
    refine .inr (matches_sequence_cons.mpr ⟨_, name.within (by decide) front [], ?_⟩)
    refine matches_sequence_cons.mpr ⟨_, path.within (by decide) front [], ?_⟩
    refine matches_sequence_cons.mpr ⟨_, matches_wordEdge_within front edge behind₂, ?_⟩
    refine matches_sequence_cons.mpr ⟨_, field.within (by decide) front [], ?_⟩
    exact matches_wordEdge_within front last behind₄

end

/-- Behind some `$\x7b\x7b`, and before the next `\x7d\x7d`, stands something that strangers can
fill. -/
def ShowsUntrusted (script : List Char) : Prop :=
  ∃ front rest inner, script = front ++ (opening ++ rest) ∧ untilClosing rest = some inner ∧
    untrustedInput.occursIn inner

theorem isSome_untrustedExpression?_iff (script : String) :
    (untrustedExpression? script).isSome ↔ ShowsUntrusted script.toList := by
  rw [untrustedExpression?, Option.isSome_map, List.find?_isSome]
  exact Expression.exists_mem_inners_iff fun w inner => untrustedInput_occursIn_append w

/-! ### The rule -/

/-- The rule about untrusted input in scripts. -/
def injectionRule : Rule :=
  .total "script-injection" .triggersPermissions .mustFix
    "Untrusted event fields are not interpolated into scripts" scriptInjection

theorem rule?_scriptInjection : Catalog.rule? "script-injection" = some injectionRule := by
  rfl

section

variable {doc : Tree.Document} {x : Job × Step} {run : Tree.Scalar}

theorem findingsAt_injectionRule (distinct : doc.root.All Tree.Node.HasDistinctChildren)
    (hx : x ∈ (Workflow.ofDocument doc).steps) (hrun : x.2.run = some run) (s : Settings) :
    ((∃ f, injectionRule.findingsAt (.ofDocument doc) s (Pointer.child x.2.path "run") = [f]) ↔
      ShowsUntrusted run.value.toList) ∧
    (injectionRule.findingsAt (.ofDocument doc) s (Pointer.child x.2.path "run") = [] ↔
      ¬ ShowsUntrusted run.value.toList) := by
  have at_step := Rule.findingsAt_step_iff distinct (r := injectionRule) (s := s) "run" rfl
    (by
      rintro ⟨j, st⟩ d h
      obtain ⟨expression, -, rfl⟩ := Option.map_eq_some_iff.mp h
      rfl) hx
  rw [← isSome_untrustedExpression?_iff]
  simpa only [hrun, Option.bind_some, Option.isSome_map] using at_step

/-- The script of a step has one finding if untrusted input stands behind some `$\x7b\x7b` and
before the next `\x7d\x7d`, whatever stands around it, and none otherwise. So an expression, as the
language delimits it, hides no untrusted input unless it has a `\x7d\x7d` in quotes. -/
theorem untrustedInputs_exact {text : String} (loaded : Tree.load text = .ok doc)
    (hx : x ∈ (Workflow.ofDocument doc).steps) (hrun : x.2.run = some run) (s : Settings) :
    Catalog.rule? "script-injection" = some injectionRule ∧
    ((∃ f, injectionRule.findingsAt (.ofDocument doc) s (Pointer.child x.2.path "run") = [f]) ↔
      ShowsUntrusted run.value.toList) ∧
    (injectionRule.findingsAt (.ofDocument doc) s (Pointer.child x.2.path "run") = [] ↔
      ¬ ShowsUntrusted run.value.toList) ∧
    ∀ inner, Interpolates run.value.toList inner → ¬ closing <:+: inner →
      untrustedInput.occursIn inner →
      ∃ f, injectionRule.findingsAt (.ofDocument doc) s (Pointer.child x.2.path "run") = [f] := by
  obtain ⟨one, none⟩ := findingsAt_injectionRule (Tree.load_distinct loaded) hx hrun s
  refine ⟨rule?_scriptInjection, one, none, ?_⟩
  rintro inner ⟨front, rest, split, ends⟩ unquoted occurs
  obtain ⟨seen, first, -, whole⟩ := Expression.exists_untilClosing ends
  rw [whole unquoted] at first
  exact one.mpr ⟨front, rest, inner, split, first, occurs⟩

end

/-- A workflow with one step, which runs the script. -/
def runText (script : String) : String := "jobs:\n  a:\n    steps:\n    - run: " ++ script ++ "\n"

theorem exists_runStep (script : String)
    (h : (Tree.load (runText script)).toOption.map (fun doc =>
      (Workflow.ofDocument doc).steps.map fun x => x.2.run.map (·.value)) = some [some script]) :
    ∃ doc x run, Tree.load (runText script) = .ok doc ∧ x ∈ (Workflow.ofDocument doc).steps ∧
      x.2.run = some run ∧ run.value = script := by
  obtain ⟨doc, x, loaded, hx, found⟩ := Workflow.exists_step _ h
  obtain ⟨run, hrun, same⟩ := Option.map_eq_some_iff.mp found
  exact ⟨doc, x, run, loaded, hx, hrun, same⟩

/-- Untrusted input behind an expression that quotes braces. -/
def laterScript : String :=
  "$\x7b\x7b '\x7d\x7d' \x7d\x7d \x7d $\x7b\x7b github.head_ref \x7d\x7d"

theorem untrustedInputs_exact_later : ∃ doc x run f, Tree.load (runText laterScript) = .ok doc ∧
    x ∈ (Workflow.ofDocument doc).steps ∧ x.2.run = some run ∧
    Interpolates run.value.toList " github.head_ref ".toList ∧
    ¬ closing <:+: " github.head_ref ".toList ∧
    untrustedInput.occursIn " github.head_ref ".toList ∧
    injectionRule.findingsAt (.ofDocument doc) {} (Pointer.child x.2.path "run") = [f] := by
  obtain ⟨doc, x, run, loaded, hx, hrun, script⟩ :=
    exists_runStep laterScript (by decide +kernel)
  have delimited : Interpolates run.value.toList " github.head_ref ".toList := by
    rw [script]
    exact ⟨"$\x7b\x7b '\x7d\x7d' \x7d\x7d \x7d ".toList, " github.head_ref \x7d\x7d".toList,
      by decide, by decide⟩
  have unquoted : ¬ closing <:+: " github.head_ref ".toList := by decide
  have occurs : untrustedInput.occursIn " github.head_ref ".toList := by decide +kernel
  obtain ⟨f, found⟩ :=
    (untrustedInputs_exact loaded hx hrun {}).2.2.2 _ delimited unquoted occurs
  exact ⟨doc, x, run, f, loaded, hx, hrun, delimited, unquoted, occurs, found⟩

/-- A formatted text with a brace in front of untrusted input. -/
def quotedInner : String := " format('\x7d\x7d\x7b0\x7d', github.head_ref) "

/-- The script that shows nothing but `quotedInner`. -/
def quotedScript : String := "$\x7b\x7b" ++ quotedInner ++ "\x7d\x7d"

/-- Braces in quotes hide the untrusted input behind them. -/
theorem not_forall_interpolated_reported : ¬ ∀ text doc, Tree.load text = .ok doc →
    ∀ x ∈ (Workflow.ofDocument doc).steps, ∀ run, x.2.run = some run → ∀ inner,
      Interpolates run.value.toList inner → untrustedInput.occursIn inner → ∀ s : Settings,
      ∃ f, injectionRule.findingsAt (.ofDocument doc) s (Pointer.child x.2.path "run") = [f] := by
  intro reported
  obtain ⟨doc, x, run, loaded, hx, hrun, script⟩ :=
    exists_runStep quotedScript (by decide +kernel)
  have delimited : Interpolates run.value.toList quotedInner.toList := by
    rw [script]
    exact ⟨[], (quotedInner ++ "\x7d\x7d").toList, by decide, by decide⟩
  have occurs : untrustedInput.occursIn quotedInner.toList := by decide +kernel
  have one := reported _ doc loaded x hx run hrun _ delimited occurs {}
  rw [(findingsAt_injectionRule (Tree.load_distinct loaded) hx hrun {}).1,
    ← isSome_untrustedExpression?_iff, script] at one
  have silent : untrustedExpression? quotedScript = none := by decide +kernel
  rw [silent] at one
  cases one

end Security

end FlowLint
