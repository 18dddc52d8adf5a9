import FlowLint.Catalog
import FlowLint.Proofs.Recasing
import Mathlib.Data.List.DropRight

/-! Identifiers in snake case. What is proposed for an identifier are the runs of small letters and
digits of its lower case with one low line between two of them (`toList_suggest`). So there is only
one thing that the rule can have against a proposal: that the first run begins with a digit
(`isSnakeCase_suggest_iff`). Such a proposal is reported in its turn and proposed again
(`suggest_suggest`). -/

namespace FlowLint

namespace Identifier

variable {c : Char} {s t rest : List Char}

/-! ### Accepted identifiers -/

/-- A small letter, then small letters, digits and low lines. -/
def IsSnake (s : List Char) : Prop :=
  ∃ c rest, s = c :: rest ∧ isSmall c ∧ ∀ d ∈ rest, isSmallOrDigit d ∨ d = '_'

theorem isSnakeCase_cons_of_forall (h : ∀ d ∈ rest, isSmallOrDigit d ∨ d = '_') :
    isSnakeCase (c :: rest) = isSmall c := by
  have none : (rest.dropWhile fun d => isSmallOrDigit d || d == '_') = [] := by
    rw [List.dropWhile_eq_nil_iff]
    simpa using h
  simp [isSnakeCase, none]

theorem IsSnake.isSnakeCase (h : IsSnake s) : isSnakeCase s := by
  obtain ⟨c, rest, rfl, first, kept⟩ := h
  rw [isSnakeCase_cons_of_forall kept]
  exact first

/-- A line feed behind an identifier in snake case makes no difference. -/
theorem isSnakeCase_iff :
    isSnakeCase s ↔ IsSnake s ∨ ∃ t, IsSnake t ∧ s = t ++ ['\n'] := by
  constructor
  · intro h
    cases s with
    | nil => cases h
    | cons c rest =>
      obtain ⟨first, ends⟩ := Bool.and_eq_true_iff.mp h
      have kept := List.all_eq_true.mp
        (List.all_takeWhile (p := fun d => isSmallOrDigit d || d == '_') (l := rest))
      have split := List.takeWhile_append_dropWhile
        (p := fun d => isSmallOrDigit d || d == '_') (l := rest)
      have snake : IsSnake (c :: rest.takeWhile fun d => isSmallOrDigit d || d == '_') :=
        ⟨c, _, rfl, first, by simpa using kept⟩
      rcases Bool.or_eq_true_iff.mp ends with none | feed
      · rw [List.isEmpty_iff.mp none, List.append_nil] at split
        exact .inl (split ▸ snake)
      · rw [eq_of_beq feed] at split
        exact .inr ⟨_, snake, congrArg (c :: ·) split.symm⟩
  · rintro (h | ⟨t, ⟨c, rest, rfl, first, kept⟩, rfl⟩)
    · exact h.isSnakeCase
    · have tail : ((rest ++ ['\n']).dropWhile fun d => isSmallOrDigit d || d == '_') = ['\n'] := by
        rw [List.dropWhile_append_of_pos (by simpa using kept)]
        decide
      simp [isSnakeCase, first, tail]

/-! ### Runs with low lines between them -/

theorem ne_lowLine (h : isSmallOrDigit c) : c ≠ '_' := by
  rintro rfl
  exact absurd h (by decide)

/-- The longest runs of small letters and digits. -/
def runs (s : List Char) : List (List Char) :=
  (Text.pieces (!isSmallOrDigit ·) s).filter (· != [])

theorem joinRuns_spelled (inRun : Bool) (s : List Char) :
    ∀ d ∈ joinRuns inRun s, isSmallOrDigit d ∨ d = '_' := by
  induction s generalizing inRun with
  | nil => exact List.forall_mem_nil _
  | cons c s ih =>
    unfold joinRuns
    split
    next small => exact List.forall_mem_cons.mpr ⟨.inl small, ih false⟩
    next =>
      split
      · exact ih true
      · exact List.forall_mem_cons.mpr ⟨.inr rfl, ih true⟩

theorem dropWhile_joinRuns (inRun : Bool) (s : List Char) :
    (joinRuns inRun s).dropWhile (· == '_') = joinRuns true s := by
  induction s generalizing inRun with
  | nil => rfl
  | cons c s ih =>
    by_cases small : isSmallOrDigit c
    · simp only [joinRuns, small, if_true]
      exact List.dropWhile_cons_of_neg (by simpa using ne_lowLine small)
    · cases inRun <;> simp [joinRuns, small, ih]

/-- If the joining begins as within a run of other characters, no low line comes first. -/
theorem suggest_eq (i : String) :
    suggest i =
      if (joinRuns true (Text.lower i).toList).rdropWhile (· == '_') = [] then "value"
      else .ofList ((joinRuns true (Text.lower i).toList).rdropWhile (· == '_')) := by
  have strip : stripLowLines (joinRuns false (Text.lower i).toList) =
      (joinRuns true (Text.lower i).toList).rdropWhile (· == '_') := by
    rw [stripLowLines, dropWhile_joinRuns]
    rfl
  simp only [suggest, strip, List.isEmpty_iff]

theorem rdropWhile_cons_of_ne (h : c ≠ '_') (s : List Char) :
    (c :: s).rdropWhile (· == '_') = c :: s.rdropWhile (· == '_') := by
  rw [List.rdropWhile, List.reverse_cons, List.dropWhile_append]
  split
  next none =>
    rw [List.rdropWhile, List.isEmpty_iff.mp none, List.dropWhile_cons_of_neg (by simpa using h)]
    rfl
  next => rw [List.reverse_append]; rfl

theorem rdropWhile_lowLine_cons (s : List Char) :
    ('_' :: s).rdropWhile (· == '_') =
      if s.rdropWhile (· == '_') = [] then [] else '_' :: s.rdropWhile (· == '_') := by
  rw [List.rdropWhile, List.reverse_cons, List.dropWhile_append]
  simp only [List.rdropWhile, List.reverse_eq_nil_iff, List.isEmpty_iff]
  split
  · rfl
  · simp

theorem intercalate_cons (r : List Char) (rs : List (List Char)) :
    ['_'].intercalate (r :: rs) = r ++ rs.flatMap ('_' :: ·) := by
  induction rs generalizing r with
  | nil => simp
  | cons r' rs ih => rw [List.intercalate_cons_cons, ih, List.flatMap_cons, List.append_assoc]; rfl

theorem ne_nil_of_mem_runs {r : List Char} (h : r ∈ runs s) : r ≠ [] := by
  simpa using (List.mem_filter.mp h).2

theorem intercalate_runs_eq_nil_iff : ['_'].intercalate (runs s) = [] ↔ runs s = [] := by
  constructor
  · intro h
    cases found : runs s with
    | nil => rfl
    | cons r rs =>
      rw [found, intercalate_cons] at h
      have there : r ∈ runs s := found ▸ List.mem_cons_self
      exact absurd (List.append_eq_nil_iff.mp h).1 (ne_nil_of_mem_runs there)
  · intro h
    rw [h]
    rfl

/-- Between runs stands one low line; the flag tells whether the first piece goes on with what stood
before. -/
theorem rdropWhile_joinRuns (s : List Char) :
    (joinRuns true s).rdropWhile (· == '_') = ['_'].intercalate (runs s) ∧
      ∀ p ps, Text.pieces (!isSmallOrDigit ·) s = p :: ps →
        (joinRuns false s).rdropWhile (· == '_') =
          p ++ (ps.filter (· != [])).flatMap ('_' :: ·) := by
  -- Both at once: a letter turns the flag off, any other character turns it on.
  induction s with
  | nil =>
    refine ⟨rfl, ?_⟩
    rintro p ps ⟨⟩
    rfl
  | cons c s ih =>
    obtain ⟨between, begun⟩ := ih
    by_cases small : isSmallOrDigit c
    · obtain ⟨p, ps, read⟩ := List.exists_cons_of_ne_nil (Text.pieces_ne_nil (!isSmallOrDigit ·) s)
      have longer : Text.pieces (!isSmallOrDigit ·) (c :: s) = (c :: p) :: ps :=
        Text.pieces_append_of_not_sep (w := [c]) (by simpa using small) read
      have joined : (c :: joinRuns false s).rdropWhile (· == '_') =
          (c :: p) ++ (ps.filter (· != [])).flatMap ('_' :: ·) := by
        rw [rdropWhile_cons_of_ne (ne_lowLine small), begun p ps read, List.cons_append]
      simp only [joinRuns, small, if_true]
      constructor
      · rw [joined, runs, longer, List.filter_cons_of_pos (by simp), intercalate_cons]
      · intro p' ps' read'
        obtain ⟨rfl, rfl⟩ := List.cons.inj (longer.symm.trans read')
        exact joined
    · have apart : Text.pieces (!isSmallOrDigit ·) (c :: s) =
          [] :: Text.pieces (!isSmallOrDigit ·) s :=
        Text.pieces_append_sep (by simpa using small) [] s
      have same : runs (c :: s) = runs s := by
        rw [runs, apart, List.filter_cons_of_neg (by simp), runs]
      simp only [joinRuns, small, Bool.false_eq_true, if_false, if_true]
      constructor
      · rw [between, same]
      · intro p ps read
        obtain ⟨rfl, rfl⟩ := List.cons.inj (apart.symm.trans read)
        rw [rdropWhile_lowLine_cons, between, List.nil_append]
        -- The low line stays only if a run follows.
        show _ = (runs s).flatMap ('_' :: ·)
        cases found : runs s with
        | nil => rfl
        | cons r rs =>
          have there : ¬ ['_'].intercalate (r :: rs) = [] := by
            rw [← found, intercalate_runs_eq_nil_iff, found]
            exact List.cons_ne_nil r rs
          rw [if_neg there, intercalate_cons, List.flatMap_cons]
          rfl

/-! ### What is proposed -/

/-- The runs of small letters and digits of the lower case, with low lines between them. -/
theorem toList_suggest (i : String) :
    (suggest i).toList =
      if runs (Text.lower i).toList = [] then "value".toList
      else ['_'].intercalate (runs (Text.lower i).toList) := by
  simp only [suggest_eq, (rdropWhile_joinRuns _).1, intercalate_runs_eq_nil_iff]
  split
  · rfl
  · exact String.toList_ofList

theorem head?_joinRuns (s : List Char) : (joinRuns true s).head? = s.find? isSmallOrDigit := by
  induction s with
  | nil => rfl
  | cons c s ih =>
    by_cases small : isSmallOrDigit c
    · simp [joinRuns, small]
    · simp [joinRuns, small, ih]

/-- A proposal is `value`, or it begins with the first small letter or digit that there is. -/
theorem suggest_cases (i : String) :
    (suggest i = "value" ∧ (Text.lower i).toList.find? isSmallOrDigit = none) ∨
      ∃ c rest, (suggest i).toList = c :: rest ∧
        (Text.lower i).toList.find? isSmallOrDigit = some c ∧
        ∀ d ∈ rest, isSmallOrDigit d ∨ d = '_' := by
  have spelled := joinRuns_spelled true (Text.lower i).toList
  have first := head?_joinRuns (Text.lower i).toList
  cases joined : joinRuns true (Text.lower i).toList with
  | nil =>
    rw [joined] at first
    refine .inl ⟨?_, first.symm⟩
    simp [suggest_eq, joined]
  | cons c rest =>
    rw [joined] at first spelled
    have small : isSmallOrDigit c := List.find?_some first.symm
    have kept : (c :: rest).rdropWhile (· == '_') = c :: rest.rdropWhile (· == '_') :=
      rdropWhile_cons_of_ne (ne_lowLine small) rest
    have begins : rest.rdropWhile (· == '_') <+: rest := List.rdropWhile_prefix _ rest
    refine .inr ⟨c, rest.rdropWhile (· == '_'), ?_, first.symm, ?_⟩
    · simp [suggest_eq, joined, kept]
    · intro d hd
      exact spelled d (List.mem_cons_of_mem c (begins.subset hd))

/-- A proposal is in snake case unless a digit stands before all small letters of the lower case. -/
theorem isSnakeCase_suggest_iff (i : String) :
    isSnakeCase (suggest i).toList ↔
      ∀ c ∈ (Text.lower i).toList.find? isSmallOrDigit, isSmall c := by
  rcases suggest_cases i with ⟨same, none⟩ | ⟨c, rest, same, first, kept⟩
  · rw [same, none]
    exact iff_of_true (by decide) nofun
  · rw [same, first, isSnakeCase_cons_of_forall kept]
    simp

/-- No proposal ends with a line feed. -/
theorem isSnakeCase_suggest_iff_isSnake (i : String) :
    isSnakeCase (suggest i).toList ↔ IsSnake (suggest i).toList := by
  refine ⟨?_, IsSnake.isSnakeCase⟩
  rcases suggest_cases i with ⟨same, -⟩ | ⟨c, rest, same, -, kept⟩
  · intro _
    have letters : "alue".toList.all isSmallOrDigit := by decide
    rw [same]
    exact ⟨'v', "alue".toList, rfl, by decide, fun d hd => .inl (List.all_eq_true.mp letters d hd)⟩
  · rw [same, isSnakeCase_cons_of_forall kept]
    intro first
    exact ⟨c, rest, rfl, first, kept⟩

/-! ### Proposals for proposals -/

theorem lowerChars_eq (h : isSmallOrDigit c ∨ c = '_') : Text.lowerChars c = [c] := by
  have ascii : c.toNat < 0x80 ∧ ¬ (0x41 ≤ c.toNat ∧ c.toNat ≤ 0x5A) := by
    rcases h with small | rfl
    · have range : (0x61 ≤ c.toNat ∧ c.toNat ≤ 0x7A) ∨ (0x30 ≤ c.toNat ∧ c.toNat ≤ 0x39) := by
        simpa [isSmallOrDigit, isSmall, Char.le_def, UInt32.le_iff_toNat_le] using small
      omega
    · decide
  obtain ⟨plain, no_capital⟩ := ascii
  have other : (c == '\u0130') = false := by
    rw [beq_eq_false_iff_ne]
    rintro rfl
    exact absurd plain (by decide)
  simp [Text.lowerChars, other, Text.lowerChar, plain, no_capital]

theorem lower_eq_self {i : String} (h : ∀ d ∈ i.toList, isSmallOrDigit d ∨ d = '_') :
    Text.lower i = i := by
  have from_any (before s : List Char) (h : ∀ d ∈ s, isSmallOrDigit d ∨ d = '_') :
      Text.lowerFrom before s = s := by
    induction s generalizing before with
    | nil => rfl
    | cons c s ih =>
      obtain ⟨hc, hs⟩ := List.forall_mem_cons.mp h
      have other : (c == 'Σ') = false := by
        rw [beq_eq_false_iff_ne]
        rintro rfl
        exact absurd hc (by decide)
      rw [Text.lowerFrom, other, if_neg Bool.false_ne_true, lowerChars_eq hc, ih _ hs]
      rfl
  rw [Text.lower, from_any [] _ h, String.ofList_toList]

/-- What begins joined runs is joined already. -/
theorem joinRuns_eq_self {inRun : Bool} (h : t <+: joinRuns inRun s) : joinRuns inRun t = t := by
  induction s generalizing t inRun with
  | nil =>
    rw [List.prefix_nil.mp h]
    rfl
  | cons c s ih =>
    cases t with
    | nil => rfl
    | cons d t =>
      unfold joinRuns at h
      split at h
      next small =>
        obtain ⟨rfl, begins⟩ := List.cons_prefix_cons.mp h
        rw [joinRuns, if_pos small, ih begins]
      next =>
        split at h
        next within =>
          rw [within]
          exact ih h
        next fresh =>
          obtain ⟨rfl, begins⟩ := List.cons_prefix_cons.mp h
          rw [joinRuns, if_neg (by decide), if_neg fresh, ih begins]

/-- There is no second proposal. -/
theorem suggest_suggest (i : String) : suggest (suggest i) = suggest i := by
  have proposed := suggest_eq i
  generalize found : (joinRuns true (Text.lower i).toList).rdropWhile (· == '_') = t at proposed
  have begins : t <+: joinRuns true (Text.lower i).toList := found ▸ List.rdropWhile_prefix _ _
  split at proposed
  next =>
    rw [proposed]
    decide +kernel
  next there =>
    have same : Text.lower (suggest i) = suggest i := by
      refine lower_eq_self ?_
      intro d hd
      rw [proposed, String.toList_ofList] at hd
      exact joinRuns_spelled true _ d (begins.subset hd)
    have stripped : t.rdropWhile (· == '_') = t := by
      rw [← found, List.rdropWhile_idempotent]
    rw [suggest_eq, same, proposed, String.toList_ofList, joinRuns_eq_self begins, stripped,
      if_neg there]

end Identifier

/-! ### The rule -/

namespace Style

open Identifier (IsSnake isSnakeCase isSmall isSmallOrDigit runs suggest)

/-- The rule about identifiers. -/
def identifierRule : Rule :=
  .total "identifier-case" .orderingNaming .improvement "Identifiers use snake_case" identifierCase

theorem rule?_identifierCase : Catalog.rule? "identifier-case" = some identifierRule := by
  rfl

/-- What the rule says about an identifier and the place of it. -/
theorem places_identifierRule (w : Workflow) (s : Settings) :
    ((identifierRule.evaluate w s).findings.map fun f => (f.location, f.change)) =
      ((identifiers w).filter fun x => !isSnakeCase x.2.toList).map fun x =>
        (x.1, "Rename to " ++ code (suggest x.2) ++ " and update its references.") := by
  show ((identifierCase w s).map (identifierRule.stamp w)).map _ = _
  rw [identifierCase]
  induction identifiers w with
  | nil => rfl
  | cons x rest ih =>
    obtain ⟨location, identifier⟩ := x
    rw [List.filterMap_cons]
    cases accepted : isSnakeCase identifier.toList with
    | true => simpa [accepted] using ih
    | false => simpa [accepted, Rule.stamp] using ih

/-- Each identifier that is not accepted has one finding, which proposes the runs of small letters
and digits of its lower case with low lines between them. A proposal is not accepted if and only if
the first of these characters is a digit, and then it is what is proposed for itself. What is
accepted is in snake case but for a line feed at the end, which no proposal has. -/
theorem identifierCase_exact (w : Workflow) (s : Settings) :
    Catalog.rule? "identifier-case" = some identifierRule ∧
    ((identifierRule.evaluate w s).findings.map fun f => (f.location, f.change)) =
      ((identifiers w).filter fun x => !isSnakeCase x.2.toList).map (fun x =>
        (x.1, "Rename to " ++ code (suggest x.2) ++ " and update its references.")) ∧
    (∀ i : String, isSnakeCase i.toList ↔
      IsSnake i.toList ∨ ∃ t, IsSnake t ∧ i.toList = t ++ ['\n']) ∧
    ∀ i : String,
      ((suggest i).toList = if runs (Text.lower i).toList = [] then "value".toList
        else ['_'].intercalate (runs (Text.lower i).toList)) ∧
      (isSnakeCase (suggest i).toList ↔
        ∀ c ∈ (Text.lower i).toList.find? isSmallOrDigit, isSmall c) ∧
      (isSnakeCase (suggest i).toList ↔ IsSnake (suggest i).toList) ∧
      suggest (suggest i) = suggest i := by
  refine ⟨rule?_identifierCase, places_identifierRule w s, fun i => Identifier.isSnakeCase_iff, ?_⟩
  intro i
  exact ⟨Identifier.toList_suggest i, Identifier.isSnakeCase_suggest_iff i,
    Identifier.isSnakeCase_suggest_iff_isSnake i, Identifier.suggest_suggest i⟩

/-- A proposal may begin with a digit, and a line feed at the end is passed over. -/
theorem not_forall_accepted_snake :
    (¬ ∀ i : String, isSnakeCase i.toList = false → isSnakeCase (suggest i).toList) ∧
      ¬ ∀ i : String, isSnakeCase i.toList → IsSnake i.toList := by
  constructor
  · intro h
    exact absurd (h "1A" (by decide)) (by decide +kernel)
  · intro h
    obtain ⟨c, rest, split, -, kept⟩ := h "a\n" (by decide)
    obtain ⟨rfl, rfl⟩ := List.cons.inj split
    exact absurd (kept '\n' List.mem_cons_self) (by decide)

end Style

end FlowLint
