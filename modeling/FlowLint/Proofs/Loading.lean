import FlowLint.Proofs.Overrides
import FlowLint.Proofs.Parsing

/-! How loading fails. The text explains what stops its events (`Event.explained_ofText`), and so it
explains what stops its tree (`Tree.explained_load`). A text whose numbers are in range has a
document or an error of its own, so that there is an answer to a request for its review. -/

namespace FlowLint.Yaml

variable {text : List Char}

/-- The code points that the text escapes exist, and the numbers of its versions are not too long.
-/
structure NumbersInRange (text : List Char) : Prop where
  codes : ∀ code, Escapes text code → code < 0x110000
  versions : ∀ count, NumbersVersion text count → count ≤ Text.Integer.maxDigits

theorem Fault.isOfText_of_explained {f : Fault} (numbers : NumbersInRange text)
    (h : f.Explained text) : f.isOfText = true := by
  cases f with
  | grammar | character => rfl
  | codePoint code => exact absurd (numbers.codes code h.2) (Nat.not_lt.mpr h.1)
  | longNumber count => exact absurd (numbers.versions count h.2) (Nat.not_le.mpr h.1)

end FlowLint.Yaml

namespace FlowLint

open FlowLint.Tree (LoadError load)
open FlowLint.Yaml (Escapes NumbersInRange)

/-! ### Documents -/

namespace Tree

theorem explained_load {content : String} {f : Yaml.Fault}
    (failed : load content = .error (.fault f)) : f.Explained content.toList := by
  unfold load at failed
  split at failed
  · cases failed
  · cases tree : Node.ofEvents (Text.lines content) (Yaml.Event.ofText content.toList) with
    | ok root =>
      rw [tree] at failed
      cases failed
    | error e =>
      rw [tree] at failed
      obtain rfl : e = .fault f := Except.error.inj failed
      unfold Node.ofEvents at tree
      split at tree
      · cases tree
      next f' _ stopped =>
        obtain rfl : f' = f := LoadError.fault.inj (Except.error.inj tree)
        exact Yaml.Event.explained_ofText content.toList f' stopped
      · cases tree

theorem isOfText_of_load {content : String} {e : LoadError}
    (numbers : NumbersInRange content.toList) (failed : load content = .error e) :
    e.isOfText = true := by
  cases e with
  | build e => rfl
  | fault f => exact Yaml.Fault.isOfText_of_explained numbers (explained_load failed)

end Tree

namespace Service

variable {reader : PatternReader}

theorem status_of_reviewed {e : Engine} {content : String}
    (numbers : NumbersInRange content.toList) :
    ∃ response, reviewed e content = .ok response ∧
      (response.status = 200 ∨ response.status = 422) := by
  unfold reviewed Review.ofText
  cases loaded : load content with
  | ok doc => exact ⟨_, rfl, .inl rfl⟩
  | error error =>
    have refused : error.raised? = none :=
      Option.isNone_iff_eq_none.mp (Tree.isOfText_of_load numbers loaded)
    refine ⟨refuseText error, ?_, .inr rfl⟩
    simp only [Except.map, refused]

/-- Overrides give an engine, or they are refused, or reading them raises an error. -/
theorem ReviewRequest.engine_cases (reader : PatternReader) (content : String) (e : Engine)
    (overrides : Option (List (String × Json))) :
    (∃ e', ReviewRequest.engine reader ⟨content, overrides⟩ e = .ok e') ∨
    (∃ response, ReviewRequest.engine reader ⟨content, overrides⟩ e = .error (.ok response) ∧
      response.status = 422) ∨
    ∃ changes error, overrides = some changes ∧
      e.settings.override reader changes = .raised error ∧
      ReviewRequest.engine reader ⟨content, overrides⟩ e = .error (.error error) := by
  match overrides with
  | none | some [] => exact .inl ⟨e, rfl⟩
  | some (m :: rest) =>
    have same : ReviewRequest.engine reader ⟨content, some (m :: rest)⟩ e =
      (orRefuse refuseSettings (e.settings.override reader (m :: rest))).map (⟨·, e.rules⟩) := rfl
    rw [same]
    cases read : e.settings.override reader (m :: rest) with
    | ok next => exact .inl ⟨_, rfl⟩
    | issues first others => exact .inr (.inl ⟨_, rfl, rfl⟩)
    | raised error => exact .inr (.inr ⟨_, error, rfl, read, rfl⟩)

theorem status_of_lint (s : State) {content : String} (overrides : Option (List (String × Json)))
    (there : Text.allBlank content = false) (numbers : NumbersInRange content.toList) :
    (∃ response, (respond reader s (lint content (overrides.map .object))).2 = .ok response ∧
      (response.status = 200 ∨ response.status = 422)) ∨
    ∃ changes error, overrides = some changes ∧
      s.engine.settings.override reader changes = .raised error ∧
      (respond reader s (lint content (overrides.map .object))).2 = .error error := by
  rw [respond_lint, there]
  obtain ⟨engine, read⟩ | ⟨response, read, status⟩ | ⟨changes, error, given, raised, read⟩ :=
    ReviewRequest.engine_cases reader content s.engine overrides
  · rw [read]
    exact .inl (status_of_reviewed numbers)
  · rw [read]
    exact .inl ⟨response, rfl, .inr status⟩
  · rw [read]
    exact .inr ⟨changes, error, given, raised, rfl⟩

/-- A text whose numbers are in range has a document or an error of its own, so that there is a
response to a request for its review, unless reading what is put over the settings raises an error.
A text that escapes half of a surrogate pair has a document too, but the response may not be one
that can be sent. -/
theorem load_or_refuse (content : String) (numbers : NumbersInRange content.toList) :
    ((∃ doc, load content = .ok doc) ∨ ∃ e, load content = .error e ∧ e.isOfText = true) ∧
    (Text.allBlank content = false →
      (∀ code, Escapes content.toList code → code.isValidChar) →
      ∀ (reader : PatternReader) (s : State) (overrides : Option (List (String × Json))),
        (∃ response, (respond reader s (lint content (overrides.map .object))).2 = .ok response ∧
          (response.status = 200 ∨ response.status = 422)) ∨
        ∃ changes error, overrides = some changes ∧
          s.engine.settings.override reader changes = .raised error ∧
          (respond reader s (lint content (overrides.map .object))).2 = .error error) := by
  refine ⟨?_, fun there _ reader s overrides => status_of_lint s overrides there numbers⟩
  cases loaded : load content with
  | ok doc => exact .inl ⟨doc, rfl⟩
  | error e => exact .inr ⟨e, rfl, Tree.isOfText_of_load numbers loaded⟩

/-- The last code point can be escaped. -/
theorem load_or_refuse_last :
    let content := "\"\\U0010FFFF\""
    NumbersInRange content.toList ∧
      ∃ response, (respond .standard (.start default) (lint content none)).2 = .ok response ∧
        (response.status = 200 ∨ response.status = 422) := by
  intro content
  have escaped : ∀ code, Escapes content.toList code → code = 0x10FFFF := by
    rintro code ⟨letter, digits, inside, length, -, rfl⟩
    have backslash : ∀ tail ∈ content.toList.tails, tail.head? = some '\\' →
        tail = '\\' :: 'U' :: "0010FFFF\"".toList := by decide +kernel
    obtain ⟨_, ⟨rest, rfl⟩, behind⟩ := List.infix_iff_prefix_suffix.mp inside
    obtain ⟨rfl, line⟩ : letter = 'U' ∧ digits ++ rest = "0010FFFF\"".toList := by
      simpa using backslash _ ((List.mem_tails _ _).mpr behind) rfl
    have eight : digits.length = 8 := (Option.some.inj length).symm
    have taken : (digits ++ rest).take 8 = digits := List.take_left' eight
    rw [← taken, line]
    decide +kernel
  have numbers : NumbersInRange content.toList := by
    refine ⟨fun code h => escaped code h ▸ by decide, ?_⟩
    rintro count ⟨between, digits, inside, -, -, rfl⟩
    have short : digits.length ≤ content.toList.length :=
      ((List.suffix_append _ digits).isInfix.trans inside).length_le
    exact short.trans (by decide)
  have answered := (load_or_refuse content numbers).2 (by decide)
    (fun code h => escaped code h ▸ by decide) .standard (.start default) none
  exact ⟨numbers, answered.resolve_right (by simp)⟩

theorem not_forall_load_isOfText : ¬ ∀ content : String,
    (∃ doc, load content = .ok doc) ∨ ∃ e, load content = .error e ∧ e.isOfText = true := by
  intro all
  have beyond : (match load "\"\\U00110000\"" with
      | .ok _ => true
      | .error e => e.isOfText) = false := by decide +kernel
  rcases all "\"\\U00110000\"" with ⟨doc, loaded⟩ | ⟨e, failed, text⟩
  · simp [loaded] at beyond
  · simp [failed, text] at beyond

end Service

end FlowLint
