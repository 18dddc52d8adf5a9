import FlowLint.Proofs.Independence
import FlowLint.Proofs.Parts
import FlowLint.Proofs.Trimming

/-! The labels of a runner that the matrix gives. A label that is an expression with a variable of
the matrix and nothing else is replaced by the values on the axis of the variable, each at its own
pointer, so a value with a moving image is reported (`runnerLabels_axis`). What the entries under
`include` give to the variable is not looked at (`not_forall_given_reported`). -/

namespace FlowLint

open FlowLint.Tree (Node Scalar Mapping Document Pointer.child Pointer.item Pointer.descendant
  valued?)

/-! ### Labels that stand for a variable -/

namespace Expression

open Text (isBlank dropBlanks trimChars dropWhile_append_of_forall takeWhile_append_of_forall)

/-- The text is an expression with nothing in it but a variable of the matrix, blanks aside. -/
def StandsFor (text name : String) : Prop :=
  name ≠ "" ∧ (∀ c ∈ name.toList, isVariableChar c) ∧ ∃ before inner behind after : List Char,
    (∀ c ∈ before ++ inner ++ behind ++ after, isBlank c) ∧
    text.toList = before ++
      (opening ++ (inner ++ ("matrix.".toList ++ (name.toList ++ (behind ++ closing))))) ++ after

theorem after?_eq_some_iff {start s rest : List Char} :
    after? start s = some rest ↔ s = start ++ rest := by
  rw [after?]
  constructor
  · intro h
    split at h
    next starts =>
      obtain ⟨t, rfl⟩ := List.isPrefixOf_iff_prefix.mp starts
      rw [List.drop_left] at h
      rw [Option.some.inj h]
    next => cases h
  · rintro rfl
    rw [if_pos (List.isPrefixOf_iff_prefix.mpr (List.prefix_append start rest)), List.drop_left]

theorem isVariableChar_of_isBlank {c : Char} (h : isBlank c = true) : isVariableChar c = false := by
  cases variable_char : isVariableChar c with
  | false => rfl
  | true =>
    have range : 0x21 ≤ c.toNat ∧ c.toNat < 0x80 := by
      simp only [isVariableChar, Bool.or_eq_true, Bool.and_eq_true, decide_eq_true_eq,
        beq_iff_eq] at variable_char
      rcases variable_char with (((h | h) | h) | rfl) | rfl
      · exact ⟨Nat.le_trans (by decide) h.1, Nat.lt_of_le_of_lt h.2 (by decide)⟩
      · exact ⟨Nat.le_trans (by decide) h.1, Nat.lt_of_le_of_lt h.2 (by decide)⟩
      · exact ⟨Nat.le_trans (by decide) h.1, Nat.lt_of_le_of_lt h.2 (by decide)⟩
      · decide
      · decide
    simp [isBlank, range.2] at h
    omega

theorem standsFor_of_matrixVariable? {text name : String} (h : matrixVariable? text = some name) :
    StandsFor text name := by
  simp only [matrixVariable?, Option.bind_eq_bind, Option.bind_eq_some_iff,
    after?_eq_some_iff] at h
  obtain ⟨s, trimmed, t, dropped, h⟩ := h
  split at h
  next => cases h
  next clean =>
    simp only [Bool.or_eq_true, not_or, Bool.not_eq_true, List.isEmpty_eq_false_iff,
      bne_eq_false_iff_eq] at clean
    obtain ⟨there, rest⟩ := clean
    obtain ⟨before, after, around, hbefore, hafter⟩ := Text.exists_trimChars text.toList
    obtain ⟨inner, hinner, rfl⟩ := (Text.dropBlanks_eq_iff (by
      rintro c ⟨⟩
      decide)).mp dropped
    obtain ⟨behind, hbehind, ends⟩ := (Text.dropBlanks_eq_iff (by
      rintro c ⟨⟩
      decide)).mp rest
    have named : name.toList = t.takeWhile isVariableChar := by
      rw [← Option.some.inj h, String.toList_ofList]
    refine ⟨fun none => there ?_, ?_, before, inner, behind, after, ?_, ?_⟩
    · rw [← named, none, String.toList_empty]
    · rw [named]
      exact List.all_eq_true.mp List.all_takeWhile
    · simp only [List.mem_append]
      rintro c (((hc | hc) | hc) | hc)
      · exact hbefore c hc
      · exact hinner c hc
      · exact hbehind c hc
      · exact hafter c hc
    · rw [← ends, named, List.takeWhile_append_dropWhile, ← trimmed]
      exact around

theorem StandsFor.matrixVariable?_eq {text name : String} (h : StandsFor text name) :
    matrixVariable? text = some name := by
  obtain ⟨there, hname, before, inner, behind, after, blank, split⟩ := h
  simp only [List.mem_append] at blank
  have trimmed : trimChars text.toList =
      opening ++ (inner ++ ("matrix.".toList ++ (name.toList ++ (behind ++ closing)))) := by
    rw [split]
    refine Text.trimChars_append (fun c hc => blank c (.inl (.inl (.inl hc))))
      (fun c hc => blank c (.inr hc)) (by simp [opening]) ?_ ?_
    · rintro c ⟨⟩
      decide
    · simp only [List.getLast?_append]
      rintro c ⟨⟩
      decide
  have dropped : dropBlanks (inner ++ ("matrix.".toList ++ (name.toList ++ (behind ++ closing)))) =
      "matrix.".toList ++ (name.toList ++ (behind ++ closing)) := by
    refine dropWhile_append_of_forall (fun c hc => blank c (.inl (.inl (.inr hc)))) ?_
    rintro c ⟨⟩
    decide
  have stop : ∀ c ∈ (behind ++ closing).head?, isVariableChar c = false := by
    intro c hc
    cases behind with
    | nil =>
      cases hc
      decide
    | cons d behind =>
      cases hc
      exact isVariableChar_of_isBlank (blank c (.inl (.inr List.mem_cons_self)))
  have ends : dropBlanks (behind ++ closing) = closing := by
    refine dropWhile_append_of_forall (fun c hc => blank c (.inl (.inr hc))) ?_
    rintro c ⟨⟩
    decide
  simp only [matrixVariable?, Option.bind_eq_bind, Option.bind_some,
    after?_eq_some_iff.mpr trimmed, after?_eq_some_iff.mpr dropped,
    takeWhile_append_of_forall hname stop, dropWhile_append_of_forall hname stop, ends]
  rw [if_neg (by simpa using there), String.ofList_toList]

theorem matrixVariable?_eq_some_iff {text name : String} :
    matrixVariable? text = some name ↔ StandsFor text name :=
  ⟨standsFor_of_matrixVariable?, StandsFor.matrixVariable?_eq⟩

end Expression

/-! ### The values of a variable -/

/-- The scalar at a node, or a scalar of the list there, with its pointer. What says that there is
no value is none. -/
inductive Offers (path : String) : Node → String → Scalar → Prop where
  | scalar {n : Node} {s : Scalar} : valued? (some n) = some s → Offers path n path s
  | item {o : Tree.Origin} {items : List Node} {i : Nat} {n : Node} {s : Scalar} :
      items[i]? = some n → valued? (some n) = some s →
      Offers path (.sequence o items) (Pointer.item path i) s

theorem mem_itemScalars_iff {path p : String} {items : List Node} {s : Scalar} :
    (p, s) ∈ itemScalars path 0 items ↔
      ∃ i n, items[i]? = some n ∧ valued? (some n) = some s ∧ p = Pointer.item path i := by
  simp only [itemScalars_eq, List.mem_filterMap, Prod.exists, List.mem_zipIdx_iff_getElem?,
    Option.map_eq_some_iff]
  constructor
  · rintro ⟨n, i, at_i, s, value, ⟨⟩⟩
    exact ⟨i, n, at_i, value, rfl⟩
  · rintro ⟨i, n, at_i, value, rfl⟩
    exact ⟨n, i, at_i, s, value, rfl⟩

theorem mem_pointedScalars_iff {node : Option Node} {path p : String} {s : Scalar} :
    (p, s) ∈ pointedScalars node path ↔ ∃ n, node = some n ∧ Offers path n p s := by
  unfold pointedScalars
  split
  next o items =>
    rw [mem_itemScalars_iff]
    constructor
    · rintro ⟨i, n, at_i, value, place⟩
      exact ⟨_, rfl, place ▸ .item at_i value⟩
    · rintro ⟨n, ⟨⟩, h⟩
      cases h with
      | scalar value => cases value
      | item at_i value => exact ⟨_, _, at_i, value, rfl⟩
  next no_list =>
    rw [Option.mem_toList, Option.map_eq_some_iff]
    constructor
    · rintro ⟨s, value, ⟨⟩⟩
      exact ⟨_, valued?_eq_some value, .scalar (valued?_eq_some value ▸ value)⟩
    · rintro ⟨n, rfl, h⟩
      cases h with
      | scalar value => exact ⟨s, value, rfl⟩
      | item at_i value => exact absurd rfl (no_list _ _)

namespace Job

/-- The pointer of what the matrix of a job has under a key. -/
def matrixPath (j : Job) (key : String) : String :=
  Pointer.descendant j.path ["strategy", "matrix", key]

/-- The axis of a variable gives it the value at the pointer. -/
def AxisGives (j : Job) (matrix : Mapping) (name p : String) (s : Scalar) : Prop :=
  ∃ axis, matrix.get? name = some axis ∧ Offers (j.matrixPath name) axis p s

/-- An entry of the list under `include` gives a variable the value at the pointer. -/
def IncludeGives (j : Job) (matrix : Mapping) (name p : String) (s : Scalar) : Prop :=
  ∃ i entry, (itemsOf (matrix.get? "include"))[i]?.bind Node.mapping? = some entry ∧
    scalarAt entry name = some s ∧
    p = Pointer.child (Pointer.item (j.matrixPath "include") i) name

variable {j : Job} {matrix : Mapping} (hmatrix : j.matrix.bind Node.mapping? = some matrix)
include hmatrix

theorem mem_runnerLabels_iff {p v : String} :
    (p, v) ∈ j.runnerLabels ↔
      (∃ s, (p, s) ∈ j.runsOn ∧ s.value = v ∧ ∀ name, ¬ Expression.StandsFor v name) ∨
      ∃ label ∈ j.runsOn, ∃ name s, Expression.StandsFor label.2.value name ∧
        j.AxisGives matrix name p s ∧ s.value = v := by
  simp only [runnerLabels, List.mem_flatMap]
  constructor
  · rintro ⟨⟨q, l⟩, there, h⟩
    simp only [hmatrix] at h
    split at h
    next name _ stands given =>
      obtain ⟨⟨p', s⟩, hs, same⟩ := List.mem_map.mp h
      cases same
      cases given
      obtain ⟨axis, haxis, offers⟩ := mem_pointedScalars_iff.mp hs
      exact .inr ⟨_, there, name, s, Expression.matrixVariable?_eq_some_iff.mp stands,
        ⟨axis, haxis, offers⟩, rfl⟩
    next as_written =>
      cases List.mem_singleton.mp h
      refine .inl ⟨l, there, rfl, fun name stands => ?_⟩
      exact as_written name matrix (Expression.matrixVariable?_eq_some_iff.mpr stands) rfl
  · rintro (⟨s, there, rfl, plain⟩ | ⟨label, there, name, s, stands, ⟨axis, haxis, offers⟩, rfl⟩)
    · refine ⟨_, there, ?_⟩
      have none : Expression.matrixVariable? s.value = none :=
        Option.eq_none_iff_forall_ne_some.mpr fun name h =>
          plain name (Expression.matrixVariable?_eq_some_iff.mp h)
      simp [none]
    · refine ⟨label, there, ?_⟩
      simp only [hmatrix, Expression.matrixVariable?_eq_some_iff.mpr stands]
      exact List.mem_map.mpr ⟨(p, s), mem_pointedScalars_iff.mpr ⟨axis, haxis, offers⟩, rfl⟩

end Job

/-! ### The rule -/

namespace Security

/-- The rule about images of runners. -/
def pinningRule : Rule :=
  .total "runner-pinning" .pinningTimeouts .mustFix "Runner images are pinned, not -latest"
    runnerPinning

theorem rule?_runnerPinning : Catalog.rule? "runner-pinning" = some pinningRule := by
  rfl

/-- The title of the finding about a label of a job. -/
def floatingTitle (j : Job) (label : String) : String :=
  "Job '" ++ j.label ++ "' runs on floating image " ++ code label

/-- A label of a job has a finding if it matches the pattern and is not exempt. -/
theorem exists_runnerPinning {w : Workflow} {s : Settings} {j : Job} {p label : String}
    (hj : j ∈ w.jobs) (there : (p, label) ∈ j.runnerLabels) (denied : s.denylist.occurs label)
    (bound : label ∉ s.exemptRunners) :
    ∃ f ∈ (pinningRule.evaluate w s).findings, f.ruleId = "runner-pinning" ∧
      f.severity = .mustFix ∧ f.location = p ∧ f.title = floatingTitle j label := by
  have kept : (p, label) ∈ j.runnerLabels.filter fun item =>
      !s.exemptRunners.contains item.2 && s.denylist.occurs item.2 :=
    List.mem_filter.mpr ⟨there, by simp [bound, denied]⟩
  exact ⟨_, List.mem_map_of_mem (List.mem_flatMap.mpr ⟨j, hj, List.mem_map_of_mem kept⟩),
    rfl, rfl, rfl, rfl⟩

end Security

open Expression (StandsFor)

theorem Job.AxisGives.holds {doc : Document} {j : Job} {matrix : Mapping}
    (hj : Holds doc j.path (.mapping j.node.origin j.node.entries))
    (hmatrix : j.matrix.bind Node.mapping? = some matrix) {name p : String} {s : Scalar}
    (h : j.AxisGives matrix name p s) : Holds doc p (.scalar s) := by
  obtain ⟨n, hn, hm⟩ := Option.bind_eq_some_iff.mp hmatrix
  obtain ⟨strategy, hstrategy, hn⟩ := Option.bind_eq_some_iff.mp hn
  have there := (hj.mappingAt hstrategy).get? hn
  rw [mapping?_eq_some hm] at there
  exact Holds.pointedScalars (fun n hn => there.get? hn) (mem_pointedScalars_iff.mpr h)

/-- In a job with a matrix the labels of the runner are those that stand there, if they do not stand
for a variable, and the values on the axes of the variables that the others stand for. Each value
comes with the pointer of its own scalar, and if it matches the pattern for moving images and is not
exempt, the rule reports it there. -/
theorem runnerLabels_axis {doc : Document} {j : Job} (hj : j ∈ (Workflow.ofDocument doc).jobs)
    {matrix : Mapping} (hmatrix : j.matrix.bind Node.mapping? = some matrix) (s : Settings) :
    Catalog.rule? "runner-pinning" = some Security.pinningRule ∧
    (∀ p v, (p, v) ∈ j.runnerLabels ↔
      (∃ x, (p, x) ∈ j.runsOn ∧ x.value = v ∧ ∀ name, ¬ StandsFor v name) ∨
      ∃ label ∈ j.runsOn, ∃ name x, StandsFor label.2.value name ∧ j.AxisGives matrix name p x ∧
        x.value = v) ∧
    ∀ label ∈ j.runsOn, ∀ name, StandsFor label.2.value name →
      ∀ p x, j.AxisGives matrix name p x →
        (p, x.value) ∈ j.runnerLabels ∧ Holds doc p (.scalar x) ∧
        (s.denylist.occurs x.value → x.value ∉ s.exemptRunners →
          ∃ f ∈ (Security.pinningRule.evaluate (.ofDocument doc) s).findings,
            f.ruleId = "runner-pinning" ∧ f.severity = .mustFix ∧ f.location = p ∧
            f.title = Security.floatingTitle j x.value) := by
  have exact_labels := fun p v => Job.mem_runnerLabels_iff (p := p) (v := v) hmatrix
  refine ⟨Security.rule?_runnerPinning, exact_labels, fun label there name stands p x given => ?_⟩
  have listed : (p, x.value) ∈ j.runnerLabels :=
    (exact_labels p x.value).mpr (.inr ⟨label, there, name, x, stands, given, rfl⟩)
  exact ⟨listed, given.holds (Workflow.holds_of_mem_jobs hj) hmatrix,
    Security.exists_runnerPinning hj listed⟩

/-- An axis with a null and a moving image. -/
def axisText : String :=
  "jobs:\n  a:\n    runs-on: $\x7b\x7bmatrix.os \x7d\x7d\n" ++
    "    strategy: \x7bmatrix: \x7bos: [~, ubuntu-latest]\x7d\x7d\n"

theorem runnerLabels_axis_listed : ∃ doc j,
    Tree.load axisText = .ok doc ∧ j ∈ (Workflow.ofDocument doc).jobs ∧
    ("/jobs/a/strategy/matrix/os/1", "ubuntu-latest") ∈ j.runnerLabels ∧
    ∃ f ∈ (Security.pinningRule.evaluate (.ofDocument doc) {}).findings,
      f.ruleId = "runner-pinning" ∧ f.severity = .mustFix ∧
      f.location = "/jobs/a/strategy/matrix/os/1" ∧
      f.title = Security.floatingTitle j "ubuntu-latest" := by
  obtain ⟨doc, loaded, found⟩ := Tree.exists_of_toOption (show
    (Tree.load axisText).toOption.map (fun doc =>
      (Workflow.ofDocument doc).jobs.map fun j => (j.runsOn.map (·.2.value),
        (j.matrix.bind Node.mapping?).map fun m =>
          (pointedScalars (m.get? "os") (j.matrixPath "os")).map fun x => (x.1, x.2.value))) =
      some [(["$\x7b\x7bmatrix.os \x7d\x7d"],
        some [("/jobs/a/strategy/matrix/os/1", "ubuntu-latest")])] by
    decide +kernel)
  obtain ⟨j, jobs, found⟩ := List.map_eq_singleton_iff.mp found
  obtain ⟨runsOn, found⟩ := Prod.mk.inj found
  obtain ⟨matrix, hmatrix, found⟩ := Option.map_eq_some_iff.mp found
  obtain ⟨⟨p, x⟩, offered, found⟩ := List.map_eq_singleton_iff.mp found
  obtain ⟨rfl, value⟩ := Prod.mk.inj found
  obtain ⟨label, there, written⟩ := List.exists_of_mem_map (runsOn ▸ List.mem_cons_self)
  have hj : j ∈ (Workflow.ofDocument doc).jobs := jobs ▸ List.mem_cons_self
  have stands : StandsFor label.2.value "os" := by
    rw [written]
    exact Expression.matrixVariable?_eq_some_iff.mp (by decide +kernel)
  obtain ⟨listed, -, reported⟩ := (runnerLabels_axis hj hmatrix {}).2.2 label there "os" stands _
    x (mem_pointedScalars_iff.mp (offered ▸ List.mem_cons_self))
  rw [value] at listed reported
  exact ⟨doc, j, loaded, hj, listed, reported (by decide +kernel) (by decide)⟩

/-- A value that an entry under `include` gives to a variable without an axis. -/
def includeText : String :=
  "jobs:\n  a:\n    runs-on: $\x7b\x7b matrix.os \x7d\x7d\n    strategy:\n      matrix:\n" ++
    "        include:\n          - os: ubuntu-latest\n"

/-- Not every value of the matrix is among the labels. -/
theorem not_forall_given_reported : ¬ ∀ text doc, Tree.load text = .ok doc →
    ∀ j ∈ (Workflow.ofDocument doc).jobs, ∀ matrix, j.matrix.bind Node.mapping? = some matrix →
      ∀ label ∈ j.runsOn, ∀ name, StandsFor label.2.value name →
        ∀ p x, j.AxisGives matrix name p x ∨ j.IncludeGives matrix name p x →
          (p, x.value) ∈ j.runnerLabels := by
  intro all
  obtain ⟨doc, loaded, found⟩ := Tree.exists_of_toOption (show
    (Tree.load includeText).toOption.map (fun doc =>
      (Workflow.ofDocument doc).jobs.map fun j => (j.runnerLabels.map (·.1),
        j.runsOn.map (·.2.value), (j.matrix.bind Node.mapping?).map fun m =>
          ((itemsOf (m.get? "include"))[0]?.bind Node.mapping?).map fun entry =>
            (scalarAt entry "os").isSome)) =
      some [([], ["$\x7b\x7b matrix.os \x7d\x7d"], some (some true))] by
    decide +kernel)
  obtain ⟨j, jobs, found⟩ := List.map_eq_singleton_iff.mp found
  obtain ⟨labels, found⟩ := Prod.mk.inj found
  obtain ⟨runsOn, found⟩ := Prod.mk.inj found
  obtain ⟨matrix, hmatrix, found⟩ := Option.map_eq_some_iff.mp found
  obtain ⟨entry, hentry, found⟩ := Option.map_eq_some_iff.mp found
  obtain ⟨x, value⟩ := Option.isSome_iff_exists.mp found
  obtain ⟨label, there, written⟩ := List.exists_of_mem_map (runsOn ▸ List.mem_cons_self)
  have stands : StandsFor label.2.value "os" := by
    rw [written]
    exact Expression.matrixVariable?_eq_some_iff.mp (by decide +kernel)
  have listed := all _ doc loaded j (jobs ▸ List.mem_cons_self) matrix hmatrix label there "os"
    stands _ x (.inr ⟨0, entry, hentry, value, rfl⟩)
  rw [List.map_eq_nil_iff.mp labels] at listed
  cases listed

end FlowLint
