import FlowLint.Proofs.Lines
import FlowLint.Review

/-! The layout of a report. Its headings and the boxes of its checklist stand where they should, and
there are no others, if and only if no text that is put into a line of the report has a further line
that looks like one of them (`Report.layout_iff`). Patches are harmless, as each of their lines is
indented. -/

namespace FlowLint

/-- The text is without the end of a line. -/
def Text.Solid (text : String) : Prop := ∀ c ∈ text.toList, ¬ endsLine c = true

instance : DecidablePred Text.Solid := fun text =>
  List.decidableBAll (fun c => ¬ Text.endsLine c = true) text.toList

theorem Text.Solid.append {s t : String} (hs : Solid s) (ht : Solid t) : Solid (s ++ t) := by
  intro c hc
  rw [String.toList_append, List.mem_append] at hc
  exact hc.elim (hs c) (ht c)

theorem Text.lines_of_solid {s : String} (some_left : s ≠ "") (solid : Solid s) :
    lines s = [s] := by
  have chars : s.toList ≠ [] := by simpa using some_left
  rw [lines, lineList_of_solid chars solid, List.map_singleton, String.ofList_toList]

/-- A solid text before another one is in its first line. -/
theorem Text.exists_lines_append {start : String} (some_left : start ≠ "") (solid : Solid start)
    (s : String) : ∃ first, lines (start ++ s) = (start ++ first) :: (lines s).tail := by
  have chars : start.toList ≠ [] := by simpa using some_left
  unfold lines
  rw [String.toList_append]
  cases read : lineList s.toList with
  | nil =>
    obtain empty : s.toList = [] := by
      cases cs : s.toList with
      | nil => rfl
      | cons c cs' => exact absurd (cs ▸ read) (lineList_ne_nil c cs')
    refine ⟨"", ?_⟩
    rw [empty, List.append_nil, lineList_of_solid chars solid]
    simp
  | cons line lines =>
    refine ⟨.ofList line, ?_⟩
    rw [lineList_append_of_solid solid read]
    simp

namespace Report

/-! ### Marks -/

/-- The lines of a text that begin with the mark. -/
def marked (mark text : String) : List String := (Text.lines text).filter (Text.startsWith · mark)

/-- The lines behind the first that begin with the mark. -/
def forged (mark text : String) : List String :=
  (Text.lines text).tail.filter (Text.startsWith · mark)

variable {mark : String} {m : Char}

theorem startsWith_eq_false (begins : mark.toList.head? = some m) {text : String}
    (differ : text.toList.head? ≠ some m) : Text.startsWith text mark = false := by
  unfold Text.startsWith
  cases marks : mark.toList with
  | nil => simp [marks] at begins
  | cons a as =>
    obtain rfl : a = m := by simpa [marks] using begins
    cases chars : text.toList with
    | nil => rfl
    | cons c cs =>
      have other : a ≠ c := by
        rintro rfl
        exact differ (by rw [chars]; rfl)
      simp [List.isPrefixOf, other]

/-- The lines of some texts, each ended by a line feed, are those of each text. -/
theorem marked_join (begins : mark.toList.head? = some m) (parts : List String) :
    marked mark (Text.join "\n" parts ++ "\n") = parts.flatMap (marked mark) := by
  have blank : Text.startsWith "" mark = false := startsWith_eq_false begins (by simp)
  have broken (s : String) : marked mark (s ++ "\n") = marked mark s := by
    have feed : (s ++ "\n").toList = s.toList ++ ['\n'] := String.toList_append
    unfold marked Text.lines
    rw [feed]
    rcases Text.lineList_break s.toList with same | more
    · rw [same]
    · rw [more, List.map_append, List.filter_append]
      simpa using blank
  induction parts with
  | nil => exact broken ""
  | cons s rest ih =>
    cases rest with
    | nil => simpa [Text.join] using broken s
    | cons t rest =>
      have ended : Text.EndsLine (s ++ "\n") := .inr (by simp)
      have split : Text.join "\n" (s :: t :: rest) ++ "\n" =
          (s ++ "\n") ++ (Text.join "\n" (t :: rest) ++ "\n") := String.append_assoc ..
      rw [split, List.flatMap_cons, ← ih, ← broken s]
      simp only [marked, Text.lines_append ended, List.filter_append]

theorem forged_append {start : String} (some_left : start ≠ "") (solid : Text.Solid start)
    (s : String) : forged mark (start ++ s) = forged mark s := by
  obtain ⟨first, read⟩ := Text.exists_lines_append some_left solid s
  rw [forged, read, List.tail_cons, forged]

/-- Where a text begins with a solid part that does not look like the mark, only further lines of
the text can. -/
theorem marked_append (begins : mark.toList.head? = some m) {start : String}
    (some_left : start ≠ "") (solid : Text.Solid start) (differ : start.toList.head? ≠ some m)
    (s : String) : marked mark (start ++ s) = forged mark s := by
  obtain ⟨first, read⟩ := Text.exists_lines_append some_left solid s
  have shut : Text.startsWith (start ++ first) mark = false := by
    refine startsWith_eq_false begins ?_
    obtain ⟨c, cs, chars⟩ := List.exists_cons_of_ne_nil (show start.toList ≠ [] by simpa)
    rw [String.toList_append, chars]
    simpa [chars] using differ
  rw [marked, read, List.filter_cons_of_neg (by rw [shut]; exact Bool.false_ne_true), forged]

theorem marked_of_solid (begins : mark.toList.head? = some m) {line : String}
    (solid : Text.Solid line) (differ : line.toList.head? ≠ some m) : marked mark line = [] := by
  by_cases blank : line = ""
  · subst blank
    rfl
  · rw [marked, Text.lines_of_solid blank solid]
    simpa using startsWith_eq_false begins differ

/-! ### Reports -/

/-- The line of a finding behind its number. -/
def headText (f : Finding) : String :=
  f.title ++ "** (" ++ code f.ruleId ++ " at " ++
    code (if f.location.isEmpty then "/" else f.location) ++ ")"

/-- The texts that are put into the lines of a finding as they are. -/
def inserted (f : Finding) : List String := [headText f, f.why, f.change]

theorem solid_toString (n : Nat) : Text.Solid (toString n) := by
  intro c hc
  rw [Nat.toString_eq_repr, Nat.toList_repr] at hc
  have digit : c.isDigit = true := Nat.isDigit_of_mem_toDigits (by decide) (by decide) hc
  have range : 48 ≤ c.toNat ∧ c.toNat ≤ 57 := by
    simpa [Char.isDigit, UInt32.le_iff_toNat_le] using digit
  simp only [Text.endsLine]
  grind

section

variable (begins : mark.toList.head? = some m) (known : m = '#' ∨ m = '-')
include begins known

theorem marked_remark (heading text : String) (solid : Text.Solid heading) :
    (remark heading text).flatMap (marked mark) = forged mark text := by
  have other : m ≠ ' ' := by rintro rfl; simp at known
  unfold remark
  split
  next blank =>
    obtain rfl : text = "" := by simpa using blank
    rfl
  next =>
    have start : Text.Solid ("   - " ++ heading ++ ": ") :=
      (Text.Solid.append (by decide) solid).append (by decide)
    rw [List.flatMap_singleton]
    exact marked_append begins (by simp) start (by simpa using other.symm) text

theorem marked_patchLines (patch : String) : (patchLines patch).flatMap (marked mark) = [] := by
  have other : m ≠ ' ' := by rintro rfl; simp at known
  have shut {line : String} (solid : Text.Solid line)
      (indented : ∀ c ∈ line.toList.head?, c = ' ') :
      marked mark line = [] :=
    marked_of_solid begins solid fun h => other (indented m h)
  refine List.flatMap_eq_nil_iff.mpr fun line h => ?_
  simp only [patchLines, List.mem_append, List.mem_cons, List.not_mem_nil, or_false, List.mem_map]
    at h
  rcases h with ((rfl | rfl) | ⟨l, hl, rfl⟩) | rfl
  · exact shut (by decide) (by simp)
  · exact shut (by decide) (by simp)
  · obtain ⟨chars, among, rfl⟩ := List.mem_map.mp hl
    have solid : Text.Solid (.ofList chars) := by
      intro c hc
      rw [String.toList_ofList] at hc
      exact Text.solid_of_mem_lineList among c hc
    split
    · exact shut (by decide) (by simp)
    · exact shut (Text.Solid.append (by decide) solid) (by simp)
  · exact shut (by decide) (by simp)

omit begins in
theorem head_toString_ne (n : Nat) (s : String) : (toString n ++ s).toList.head? ≠ some m := by
  rw [String.toList_append, Nat.toString_eq_repr, Nat.toList_repr]
  obtain ⟨c, cs, digits⟩ := List.exists_cons_of_ne_nil (Nat.toDigits_ne_nil (n := n) (b := 10))
  have digit : c.isDigit = true :=
    Nat.isDigit_of_mem_toDigits (n := n) (b := 10) (by decide) (by decide) (by simp [digits])
  rw [digits]
  rintro ⟨rfl⟩
  rcases known with rfl | rfl <;> cases digit

theorem marked_findingLines (number : Nat) (f : Finding) :
    (findingLines number f).flatMap (marked mark) = (inserted f).flatMap (forged mark) := by
  have start : Text.Solid (toString number ++ ". **") :=
    (solid_toString number).append (by decide)
  have head : marked mark (toString number ++ ". **" ++ headText f) = forged mark (headText f) :=
    marked_append begins (by simp) start (head_toString_ne known number _) _
  have line : s!"{number}. **" ++ f.title ++ "** (" ++ code f.ruleId ++ " at " ++
      code (if f.location.isEmpty then "/" else f.location) ++ ")" =
        toString number ++ ". **" ++ headText f := by
    simp only [headText, String.append_assoc]
    rfl
  rw [findingLines, List.flatMap_append, List.flatMap_append, List.flatMap_append,
    List.flatMap_singleton, line, head, marked_remark begins known _ _ (by decide),
    marked_remark begins known _ _ (by decide)]
  cases f.patch with
  | none => simp [inserted]
  | some patch =>
    dsimp only
    split
    · simp [inserted]
    · simp [inserted, marked_patchLines begins known]

theorem marked_numbered (first : Nat) (findings : List Finding) :
    (numbered first findings).flatMap (marked mark) =
      (findings.flatMap inserted).flatMap (forged mark) := by
  induction findings generalizing first with
  | nil => rfl
  | cons f rest ih =>
    rw [numbered, List.flatMap_append, ih, marked_findingLines begins known, List.flatMap_cons,
      List.flatMap_append]

theorem marked_sectionLines (title : String) (findings : List Finding) :
    (sectionLines title findings).flatMap (marked mark) =
      marked mark ("## " ++ title) ++ (findings.flatMap inserted).flatMap (forged mark) := by
  rw [sectionLines, List.flatMap_cons]
  split
  next none_there =>
    obtain rfl : findings = [] := by simpa using none_there
    have differ : "None.".toList.head? ≠ some m := by rcases known with rfl | rfl <;> decide
    rw [List.flatMap_singleton, marked_of_solid begins (by decide) differ]
    rfl
  next => rw [marked_numbered begins known]

theorem marked_summary (w : Workflow) (findings : List Finding) :
    marked mark (summary w findings) = forged mark (summary w findings) := by
  obtain ⟨start, rest, split, some_left, solid, differ⟩ : ∃ start rest,
      summary w findings = start ++ rest ∧ start ≠ "" ∧ Text.Solid start ∧
        start.toList.head? ≠ some m := by
    unfold summary subject
    split
    · refine ⟨"Workflow '", _, by simp only [String.append_assoc]; rfl, by decide, by decide, ?_⟩
      rcases known with rfl | rfl <;> decide
    · refine ⟨"This workflow", _, by simp only [String.append_assoc]; rfl, by decide, by decide, ?_⟩
      rcases known with rfl | rfl <;> decide
  rw [split, marked_append begins some_left solid differ, forged_append some_left solid]

theorem marked_render (w : Workflow) (findings : List Finding) :
    marked mark (render w findings) =
      marked mark "## Summary" ++ forged mark (summary w findings) ++
      marked mark "## Must-fix" ++
        ((withSeverity .mustFix findings).flatMap inserted).flatMap (forged mark) ++
      marked mark "## Improvements" ++
        ((withSeverity .improvement findings).flatMap inserted).flatMap (forged mark) ++
      marked mark "## Quick Checklist" ++
        ((checklist findings).map checklistLine).flatMap (marked mark) := by
  have blank : marked mark "" = [] := rfl
  simp only [render, lines, marked_join begins, List.flatMap_append, List.flatMap_cons,
    List.flatMap_nil, marked_sectionLines begins known, marked_summary begins known, blank,
    List.append_nil, List.nil_append, List.append_assoc]
  rfl

end

/-! ### The layout -/

theorem solid_checklistLine (i : ChecklistItem) : Text.Solid (checklistLine i) := by
  have label : Text.Solid i.category.label := by cases i.category <;> decide
  have count : Text.Solid (plural i.count "finding") := by
    unfold plural
    split
    · exact ((solid_toString i.count).append (by decide)).append (by decide)
    · exact (((solid_toString i.count).append (by decide)).append (by decide)).append (by decide)
  unfold checklistLine
  split
  · exact ((Text.Solid.append (by decide) label).append (by decide) |>.append count).append
      (by decide)
  · exact Text.Solid.append (by decide) label

/-- A line of the checklist begins with a box. -/
theorem exists_checklistLine (i : ChecklistItem) : ∃ rest, checklistLine i = "- [" ++ rest := by
  unfold checklistLine
  split
  · exact ⟨_, by rw [show "- [x] " = "- [" ++ "x] " from rfl]; simp only [String.append_assoc]; rfl⟩
  · exact ⟨_, by rw [show "- [ ] " = "- [" ++ " ] " from rfl]; simp only [String.append_assoc]; rfl⟩

theorem marked_checklist (findings : List Finding) :
    ((checklist findings).map checklistLine).flatMap (marked "## ") = [] ∧
      ((checklist findings).map checklistLine).flatMap (marked "- [") =
        (checklist findings).map checklistLine := by
  constructor
  · refine List.flatMap_eq_nil_iff.mpr fun line h => ?_
    obtain ⟨i, -, rfl⟩ := List.mem_map.mp h
    obtain ⟨rest, split⟩ := exists_checklistLine i
    have differ : (checklistLine i).toList.head? ≠ some '#' := by simp [split]
    exact marked_of_solid rfl (solid_checklistLine i) differ
  · have single : ∀ line ∈ (checklist findings).map checklistLine, marked "- [" line = [line] := by
      intro line h
      obtain ⟨i, -, rfl⟩ := List.mem_map.mp h
      obtain ⟨rest, split⟩ := exists_checklistLine i
      have some_left : checklistLine i ≠ "" := by simp [split]
      rw [marked, Text.lines_of_solid some_left (solid_checklistLine i)]
      simp [split, Text.startsWith]
    rw [List.flatMap_def, List.map_congr_left single, ← List.flatMap_def]
    exact List.flatMap_singleton' _

/-- No text that is put into the report has a further line with the mark if none in the summary and
in the findings of each severity has. -/
theorem forged_eq_nil_iff (w : Workflow) (findings : List Finding) :
    (∀ text ∈ summary w findings :: findings.flatMap inserted, forged mark text = []) ↔
      forged mark (summary w findings) = [] ∧
        ((withSeverity .mustFix findings).flatMap inserted).flatMap (forged mark) = [] ∧
        ((withSeverity .improvement findings).flatMap inserted).flatMap (forged mark) = [] := by
  simp only [List.forall_mem_cons, List.flatMap_eq_nil_iff, List.forall_mem_flatMap, withSeverity,
    List.mem_filter, beq_iff_eq]
  refine and_congr_right fun _ => ⟨fun all => ⟨fun f hf => all f hf.1, fun f hf => all f hf.1⟩, ?_⟩
  rintro ⟨must, should⟩ f hf
  cases severity : f.severity with
  | mustFix => exact must f ⟨hf, severity⟩
  | improvement => exact should f ⟨hf, severity⟩

/-- The line for a category in the checklist of some findings. -/
def boxLine (findings : List Finding) (c : Category) : String :=
  if findings.any (·.category == c) then
    "- [x] " ++ c.label ++ " (" ++ plural (findings.countP (·.category == c)) "finding" ++ ")"
  else "- [ ] " ++ c.label

theorem map_checklistLine (findings : List Finding) :
    (checklist findings).map checklistLine = Category.all.map (boxLine findings) := by
  rw [checklist, List.map_map]
  refine List.map_congr_left fun c _ => ?_
  have flagged : decide (0 < findings.countP (·.category == c)) =
      findings.any (·.category == c) := by
    rw [Bool.eq_iff_iff, decide_eq_true_iff, List.countP_pos_iff, List.any_eq_true]
  simp only [Function.comp_apply, checklistLine, ChecklistItem.flagged, flagged, boxLine]

/-- A report of any findings about any workflow has its four headings and the six boxes of its
checklist, in their order, and no other lines that look like them, if and only if none of the texts
that are put into its lines as they are has a line behind its first that does. -/
theorem layout_iff (w : Workflow) (findings : List Finding) :
    (marked "## " (render w findings) =
        ["## Summary", "## Must-fix", "## Improvements", "## Quick Checklist"] ∧
      marked "- [" (render w findings) = Category.all.map (boxLine findings)) ↔
    ∀ text ∈ summary w findings :: findings.flatMap inserted,
      ∀ line ∈ (Text.lines text).tail,
        Text.startsWith line "## " = false ∧ Text.startsWith line "- [" = false := by
  have headings : marked "## " (render w findings) =
      ["## Summary", "## Must-fix", "## Improvements", "## Quick Checklist"] ↔
        ∀ text ∈ summary w findings :: findings.flatMap inserted, forged "## " text = [] := by
    have four : marked "## " "## Summary" = ["## Summary"] ∧
        marked "## " "## Must-fix" = ["## Must-fix"] ∧
        marked "## " "## Improvements" = ["## Improvements"] ∧
        marked "## " "## Quick Checklist" = ["## Quick Checklist"] := by decide +kernel
    rw [forged_eq_nil_iff, marked_render rfl (.inl rfl), (marked_checklist _).1, four.1, four.2.1,
      four.2.2.1, four.2.2.2]
    constructor
    · intro same
      have count := congrArg List.length same
      simp only [List.length_append, List.length_cons, List.length_nil] at count
      refine ⟨?_, ?_, ?_⟩ <;> rw [← List.length_eq_zero_iff] <;> omega
    · rintro ⟨summary, must, should⟩
      rw [summary, must, should]
      rfl
  have boxes : marked "- [" (render w findings) = Category.all.map (boxLine findings) ↔
      ∀ text ∈ summary w findings :: findings.flatMap inserted, forged "- [" text = [] := by
    have none_there : marked "- [" "## Summary" = [] ∧ marked "- [" "## Must-fix" = [] ∧
        marked "- [" "## Improvements" = [] ∧ marked "- [" "## Quick Checklist" = [] := by
      decide +kernel
    rw [forged_eq_nil_iff, marked_render rfl (.inr rfl), (marked_checklist _).2,
      map_checklistLine, none_there.1, none_there.2.1, none_there.2.2.1, none_there.2.2.2,
      List.append_left_eq_self]
    simp only [List.append_eq_nil_iff, and_true, true_and, and_assoc]
  rw [headings, boxes]
  simp only [forged, List.filter_eq_nil_iff, Bool.not_eq_true]
  constructor
  · rintro ⟨no_heading, no_box⟩ text among line behind
    exact ⟨no_heading text among line behind, no_box text among line behind⟩
  · intro all
    exact ⟨fun text among line behind => (all text among line behind).1,
      fun text among line behind => (all text among line behind).2⟩

/-- The name of the workflow has a second line, which looks like a heading. -/
def twoLineText : String :=
  "name: \"CI\\n## Must-fix\"\non: workflow_dispatch\npermissions:\n  contents: read\n" ++
    "jobs:\n  a:\n    timeout-minutes: 5\n"

theorem not_forall_layout : ¬ ∀ (text : String) (s : Settings) (review : Review),
    Review.ofText Catalog.rules s text = .ok review →
      marked "## " review.report =
          ["## Summary", "## Must-fix", "## Improvements", "## Quick Checklist"] ∧
        marked "- [" review.report = Category.all.map (boxLine review.findings) := by
  intro all
  have headings : (Review.ofText Catalog.rules default twoLineText).toOption.map
      (fun review => (marked "## " review.report).length) = some 5 := by decide +kernel
  cases reviewed : Review.ofText Catalog.rules default twoLineText with
  | error e =>
    rw [reviewed] at headings
    cases headings
  | ok review =>
    rw [reviewed] at headings
    have five : (marked "## " review.report).length = 5 := Option.some.inj headings
    rw [(all _ _ _ reviewed).1] at five
    cases five

end Report

end FlowLint
