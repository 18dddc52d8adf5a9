import FlowLint.Proofs.CommandLine
import FlowLint.Proofs.Independence
import FlowLint.Proofs.Location
import FlowLint.Proofs.Matching
import FlowLint.Proofs.Table

/-! Recursive deletes. On a command line of `rm` the pattern for deletes has a match if and only if
some option asks for recursion (`destructive_occursIn_iff`): what it finds behind a blank is an
option from its first character on, and it passes over all options before one that asks for
recursion. So the rule reports the script of a step exactly then (`recursiveDeletes_exact`). -/

namespace FlowLint.Security

open FlowLint.Tree (Pointer.child)
open Text (isBlank isLetter isWordChar)
open Pattern

/-! ### What the pattern looks for -/

/-- An option that asks for recursion, as far as the pattern looks. -/
def IsFlag (flag : List Char) : Prop :=
  (∃ letters : List Char, (∀ c ∈ letters, c.isAlpha) ∧ ('r' ∈ letters ∨ 'R' ∈ letters) ∧
    flag = '-' :: letters) ∨ flag = "--recursive".toList

theorem has_asciiLetters {c : Char} :
    ({ items := asciiLetters } : CharSet).has c = c.isAlpha := by
  rw [Bool.eq_iff_iff, Text.isAlpha_iff]
  simp [CharSet.has, asciiLetters, CharItem.has]

variable {p q r : Spot}

theorem matches_recursiveShortOption :
    recursiveShortOption.Matches p q ↔ ∃ letters : List Char, (∀ c ∈ letters, c.isAlpha) ∧
      ('r' ∈ letters ∨ 'R' ∈ letters) ∧ p.Reads ('-' :: letters) q := by
  have letter {x : Char} : ({ items := [.one 'r', .one 'R'] } : CharSet).has x ↔
      x = 'r' ∨ x = 'R' := by
    simp [CharSet.has, CharItem.has]
  simp only [recursiveShortOption, matches_sequence_cons, matches_sequence_nil, matches_char,
    matches_many, matches_oneOf, has_asciiLetters, letter, exists_eq_right']
  constructor
  · rintro ⟨p₁, hyphen, p₂, ⟨a, ha, front⟩, p₃, ⟨x, hx, found⟩, b, hb, back⟩
    refine ⟨a ++ ([x] ++ b), ?_, ?_, hyphen.trans (front.trans (found.trans back))⟩
    · have isLetter : x.isAlpha := by rcases hx with rfl | rfl <;> decide
      simp only [List.mem_append, List.mem_singleton]
      rintro c (hc | rfl | hc)
      · exact ha c hc
      · exact isLetter
      · exact hb c hc
    · rcases hx with rfl | rfl <;> simp
  · rintro ⟨letters, alpha, asked, reads⟩
    obtain ⟨x, hx, there⟩ : ∃ x, (x = 'r' ∨ x = 'R') ∧ x ∈ letters := by
      rcases asked with h | h
      · exact ⟨'r', .inl rfl, h⟩
      · exact ⟨'R', .inr rfl, h⟩
    obtain ⟨a, b, rfl⟩ := List.append_of_mem there
    simp only [List.mem_append, List.mem_cons] at alpha
    have parts : p.Reads (['-'] ++ (a ++ ([x] ++ b))) q := reads
    simp only [Spot.reads_append_iff] at parts
    obtain ⟨p₁, hyphen, p₂, front, p₃, found, back⟩ := parts
    exact ⟨p₁, hyphen, p₂, ⟨a, fun c hc => alpha c (.inl hc), front⟩, p₃, ⟨x, hx, found⟩,
      b, fun c hc => alpha c (.inr (.inr hc)), back⟩

theorem matches_anyOption :
    anyOption.Matches p q ↔ ∃ s gap, s ≠ [] ∧ (∀ c ∈ s, isBlank c = false) ∧ gap ≠ [] ∧
      (∀ c ∈ gap, isBlank c) ∧ p.Reads ('-' :: s ++ gap) q := by
  simp only [anyOption, matches_sequence_cons, matches_sequence_nil, matches_char, matches_solids,
    matches_blanks, exists_eq_right']
  constructor
  · rintro ⟨p₁, hyphen, p₂, ⟨s, some_chars, solid, front⟩, gap, some_blanks, blank, back⟩
    exact ⟨s, gap, some_chars, solid, some_blanks, blank, (hyphen.trans front).trans back⟩
  · rintro ⟨s, gap, some_chars, solid, some_blanks, blank, reads⟩
    have parts : p.Reads (['-'] ++ s ++ gap) q := reads
    simp only [List.append_assoc, Spot.reads_append_iff] at parts
    obtain ⟨p₁, hyphen, p₂, front, back⟩ := parts
    exact ⟨p₁, hyphen, p₂, ⟨s, some_chars, solid, front⟩, gap, some_blanks, blank, back⟩

theorem matches_recursiveRemove :
    recursiveRemove.Matches p q ↔ p.atWordEdge ∧ q.atWordEdge ∧
      ∃ p₁ p₂ p₃ gap flag, p.Reads "rm".toList p₁ ∧ gap ≠ [] ∧ (∀ c ∈ gap, isBlank c) ∧
        p₁.Reads gap p₂ ∧ (few anyOption).Matches p₂ p₃ ∧ IsFlag flag ∧ p₃.Reads flag q := by
  simp only [recursiveRemove, matches_sequence_cons, matches_sequence_nil, wordEdge, matches_place,
    matches_text, matches_blanks, matches_choice_cons, matches_choice_singleton,
    matches_recursiveShortOption, exists_eq_right', Place.holds]
  constructor
  · rintro ⟨_, ⟨begins, rfl⟩, p₁, rm, p₂, ⟨gap, there, blank, spaces⟩, p₃, options, _, flag, ends,
      rfl⟩
    refine ⟨begins, ends, p₁, p₂, p₃, gap, ?_⟩
    rcases flag with ⟨letters, alpha, asked, reads⟩ | reads
    · exact ⟨_, rm, there, blank, spaces, options, .inl ⟨letters, alpha, asked, rfl⟩, reads⟩
    · exact ⟨_, rm, there, blank, spaces, options, .inr rfl, reads⟩
  · rintro ⟨begins, ends, p₁, p₂, p₃, gap, flag, rm, there, blank, spaces, options, isFlag, reads⟩
    refine ⟨_, ⟨begins, rfl⟩, p₁, rm, p₂, ⟨gap, there, blank, spaces⟩, p₃, options, _, ?_, ends,
      rfl⟩
    rcases isFlag with ⟨letters, alpha, asked, rfl⟩ | rfl
    · exact .inl ⟨letters, alpha, asked, reads⟩
    · exact .inr reads

/-! ### Every match is an option -/

/-- What is read between two spots ends with a blank. -/
def EndsBlank (p q : Spot) : Prop := ∃ s c, isBlank c ∧ p.Reads (s ++ [c]) q

theorem EndsBlank.of_reads {s gap : List Char} (there : gap ≠ []) (blank : ∀ c ∈ gap, isBlank c)
    (h : p.Reads s q) (spaces : q.Reads gap r) : EndsBlank p r := by
  refine ⟨s ++ gap.dropLast, gap.getLast there, blank _ (List.getLast_mem there), ?_⟩
  rw [List.append_assoc, List.dropLast_append_getLast]
  exact h.trans spaces

theorem EndsBlank.few_anyOption (h : EndsBlank p q) (options : (few anyOption).Matches q r) :
    EndsBlank p r := by
  rw [few, matches_rep_iff rfl] at options
  obtain ⟨n, -, -, steps⟩ := options
  induction steps with
  | none => exact h
  | more step _ ih =>
    obtain ⟨s, gap, -, -, there, blank, reads⟩ := matches_anyOption.mp step
    obtain ⟨q', option, spaces⟩ := Spot.reads_append_iff.mp reads
    obtain ⟨front, c, -, before⟩ := h
    exact ih (.of_reads there blank (before.trans option) spaces)

theorem IsFlag.solid {flag : List Char} (h : IsFlag flag) : ∀ c ∈ flag, isBlank c = false := by
  rcases h with ⟨letters, alpha, -, rfl⟩ | rfl
  · intro c hc
    rcases List.mem_cons.mp hc with rfl | hc
    · decide
    · exact Text.isBlank_of_isAlpha (alpha c hc)
  · have solid : "--recursive".toList.all (!isBlank ·) = true := by decide +kernel
    simpa using List.all_eq_true.mp solid

theorem IsFlag.exists_cons {flag : List Char} (h : IsFlag flag) : ∃ rest, flag = '-' :: rest := by
  rcases h with ⟨letters, -, -, rfl⟩ | rfl
  · exact ⟨letters, rfl⟩
  · exact ⟨_, rfl⟩

theorem IsFlag.exists_concat {flag : List Char} (h : IsFlag flag) :
    ∃ front e, isWordChar e ∧ flag = front ++ [e] := by
  rcases h with ⟨letters, alpha, asked, rfl⟩ | rfl
  · have there : letters ≠ [] := by
      rintro rfl
      simp at asked
    refine ⟨'-' :: letters.dropLast, letters.getLast there, ?_, ?_⟩
    · have last := alpha _ (List.getLast_mem there)
      exact Text.isWordChar_of_isLetter (Text.isLetter_of_isAlpha last)
    · rw [List.cons_append, List.dropLast_append_getLast]
  · exact ⟨"--recursiv".toList, 'e', by decide, by decide⟩

/-- What asks for recursion at the beginning of an option asks for it if it ends at the edge of a
word. -/
theorem isRecursive_of_flag {option flag u : List Char}
    (isOption : IsShortOption option ∨ IsLongOption option) (isFlag : IsFlag flag)
    (split : option = flag ++ u) (ends : ∀ d ∈ u.head?, isWordChar d = false) :
    IsShortOption option ∧ ('r' ∈ option ∨ 'R' ∈ option) ∨ option = "--recursive".toList := by
  rcases isFlag with ⟨letters, alpha, asked, rfl⟩ | rfl
  · have within : ∀ c ∈ letters, c ∈ option := by
      intro c hc
      rw [split]
      simp [hc]
    rcases isOption with short | ⟨c, rest, -, -, rfl, -⟩
    · exact .inl ⟨short, asked.imp (within 'r') (within 'R')⟩
    · -- The second hyphen of a long option is no letter.
      cases letters with
      | nil => simp at asked
      | cons d letters =>
        have hyphen : '-' = d := (List.cons.inj (List.cons.inj split).2).1
        have := alpha d List.mem_cons_self
        rw [← hyphen] at this
        cases this
  · rcases isOption with ⟨letters, -, alpha, rfl⟩ | ⟨c, rest, -, shape, rfl, other⟩
    · have hyphen : '-' ∈ letters := by
        have behind : letters = _ := (List.cons.inj split).2
        rw [behind]
        exact List.mem_cons_self
      cases alpha '-' hyphen
    · cases u with
      | nil => exact .inr split
      | cons d u =>
        have behind : rest = "ecursive".toList ++ d :: u :=
          (List.cons.inj (List.cons.inj (List.cons.inj split).2).2).2
        rcases shape d (by simp [behind]) with letter | rfl
        · have word := ends d rfl
          rw [Text.isWordChar_of_isLetter letter] at word
          cases word
        · refine absurd ?_ other
          rw [split]
          exact ⟨u, rfl⟩

variable {l : RmLine}

theorem RmLine.isRecursive_of_matches {s : List Char} (reads : (Spot.start l.text).Reads s p)
    (h : recursiveRemove.Matches p q) : l.IsRecursive := by
  obtain ⟨-, ends, p₁, p₂, p₃, gap, flag, rm, there, blank, spaces, options, isFlag, found⟩ :=
    matches_recursiveRemove.mp h
  obtain ⟨front, c, isBlank_c, before⟩ :=
    (EndsBlank.of_reads there blank (reads.trans rm) spaces).few_anyOption options
  obtain ⟨rest, hyphen⟩ := isFlag.exists_cons
  -- The flag stands where some token begins.
  have text : l.text = front ++ c :: (flag ++ q.after) := by
    have whole : l.text = _ := (before.trans found).after
    simpa using whole
  obtain ⟨front', tokens⟩ := Text.exists_append_of_blank (by simp; decide) isBlank_c text
  rw [hyphen, List.cons_append] at tokens
  obtain ⟨t, ht, others, split⟩ := Token.exists_of_behind_blank isBlank_c (by decide) tokens
  rw [← List.cons_append, ← hyphen] at split
  obtain ⟨u, option, after⟩ :=
    Text.exists_append_of_solid isFlag.solid (Token.isBlank_of_head? others) split
  have isOption : t ∈ l.options := by
    refine (List.mem_append.mp ht).resolve_right fun operand => l.isOperand t operand ?_
    rw [option, hyphen]
    rfl
  refine ⟨t, isOption, isRecursive_of_flag (l.isOption t isOption) isFlag option ?_⟩
  intro d hd
  obtain ⟨letters, e, word, rfl⟩ := isFlag.exists_concat
  have behind : q.after.head? = some d := by
    rw [after, List.head?_append, Option.mem_def.mp hd, Option.some_or]
  rw [Spot.atWordEdge, Spot.atEdge, found.head?_before, behind] at ends
  simpa [word] using ends

/-- No token says `find`. -/
theorem RmLine.not_matches_findDelete {s : List Char} (reads : (Spot.start l.text).Reads s p) :
    ¬ findDelete.Matches p q := by
  intro h
  simp only [findDelete, matches_sequence_cons, wordEdge, matches_place, matches_text] at h
  obtain ⟨_, ⟨-, rfl⟩, p₁, find, -⟩ := h
  have within : "find".toList <:+: l.text := by
    have whole : l.text = _ := (reads.trans find).after
    exact ⟨s, p₁.after, whole.symm⟩
  have solid : ∀ c ∈ "find".toList, isBlank c = false := by simp; decide
  rcases Text.infix_or_infix_of_solid solid (Token.isBlank_of_head? _) within with name | later
  · exact absurd name (by decide)
  · obtain ⟨t, -, found⟩ := Token.infix_of_solid (by simp) solid later
    exact t.other found

/-! ### Every option is a match -/

theorem exists_cons_of_isOption {s : List Char} (h : IsShortOption s ∨ IsLongOption s) :
    ∃ rest, rest ≠ [] ∧ s = '-' :: rest := by
  rcases h with ⟨letters, there, -, rfl⟩ | ⟨c, rest, -, -, rfl, -⟩
  · exact ⟨letters, there, rfl⟩
  · exact ⟨_, List.cons_ne_nil _ _, rfl⟩

/-- Behind the spaces before some options the pattern for options passes over all of them. -/
theorem exists_few_anyOption {ts : List Token}
    (isOption : ∀ t ∈ ts, IsShortOption t.chars ∨ IsLongOption t.chars) {n : Nat} (there : 0 < n)
    {s : List Char} (h : p.after = ts.flatMap Token.written ++ (List.replicate n ' ' ++ s)) :
    ∃ gap q r, gap ≠ [] ∧ (∀ c ∈ gap, isBlank c) ∧ p.Reads gap q ∧ (few anyOption).Matches q r ∧
      r.after = s := by
  have spaces_blank {n : Nat} : ∀ c ∈ List.replicate n ' ', isBlank c := by
    intro c hc
    rw [List.eq_of_mem_replicate hc]
    decide
  have spaces_there {n : Nat} (some_spaces : 0 < n) : List.replicate n ' ' ≠ [] :=
    List.ne_nil_of_length_pos (List.length_replicate ▸ some_spaces)
  induction ts generalizing p with
  | nil =>
    obtain ⟨q, spaces, after⟩ := Spot.exists_reads (s := List.replicate n ' ') h
    exact ⟨_, q, q, spaces_there there, spaces_blank, spaces, matches_few_nil, after⟩
  | cons t ts ih =>
    obtain ⟨first, others⟩ := List.forall_mem_cons.mp isOption
    obtain ⟨rest, some_chars, option⟩ := exists_cons_of_isOption first
    rw [List.flatMap_cons, Token.written, List.append_assoc, List.append_assoc] at h
    obtain ⟨q, spaces, behind_spaces⟩ := Spot.exists_reads h
    obtain ⟨q₁, chars, behind_chars⟩ := Spot.exists_reads behind_spaces
    obtain ⟨gap, q₂, r, gap_there, gap_blank, reads, few, after⟩ := ih others behind_chars
    have step : anyOption.Matches q q₂ := by
      refine matches_anyOption.mpr ⟨rest, gap, some_chars, ?_, gap_there, gap_blank, ?_⟩
      · intro c hc
        exact t.solid c (option ▸ List.mem_cons_of_mem _ hc)
      · rw [← option]
        exact chars.trans reads
    exact ⟨_, q, r, spaces_there t.apart, spaces_blank, spaces, matches_few_cons rfl step few, after⟩

/-- An option that asks for recursion is what the pattern looks for, in full. -/
theorem RmLine.IsRecursive.matches_start (h : l.IsRecursive) :
    ∃ q, recursiveRemove.Matches (.start l.text) q := by
  obtain ⟨t, ht, asked⟩ := h
  obtain ⟨before, behind, options⟩ := List.append_of_mem ht
  have isFlag : IsFlag t.chars := by
    rcases asked with ⟨⟨letters, -, alpha, same⟩, asked⟩ | same
    · refine .inl ⟨letters, alpha, ?_, same⟩
      simpa [same] using asked
    · exact .inr same
  have text : l.text = "rm".toList ++ (before.flatMap Token.written ++
      (List.replicate t.spaces ' ' ++
        (t.chars ++ (behind ++ l.operands).flatMap Token.written))) := by
    simp [RmLine.text, options, Token.written]
  obtain ⟨p₁, rm, after_rm⟩ := Spot.exists_reads (p := .start l.text) text
  obtain ⟨gap, p₂, p₃, there, blank, spaces, few, after⟩ := exists_few_anyOption
    (fun t' ht' => l.isOption t' (by simp [options, ht'])) t.apart after_rm
  obtain ⟨q, found, after_flag⟩ := Spot.exists_reads after
  refine ⟨q, matches_recursiveRemove.mpr
    ⟨?_, ?_, p₁, p₂, p₃, gap, t.chars, rm, there, blank, spaces, few, isFlag, found⟩⟩
  · show (none.any isWordChar != l.text.head?.any isWordChar) = true
    rw [text]
    show (false != isWordChar 'r') = true
    decide
  · obtain ⟨letters, e, word, same⟩ := isFlag.exists_concat
    rw [same] at found
    rw [Spot.atWordEdge, Spot.atEdge, found.head?_before, after_flag]
    cases behind_flag : ((behind ++ l.operands).flatMap Token.written).head? with
    | none => simp [word]
    | some d =>
      rw [Token.eq_space_of_head? _ d behind_flag]
      show (isWordChar e != isWordChar ' ') = true
      rw [word]
      decide

theorem destructive_occursIn_iff (l : RmLine) :
    destructive.occursIn l.text ↔ l.IsRecursive := by
  rw [occursIn_iff]
  constructor
  · rintro ⟨s, p, q, reads, remove | find⟩
    · exact l.isRecursive_of_matches reads remove
    · exact absurd find (l.not_matches_findDelete reads)
  · intro h
    obtain ⟨q, remove⟩ := h.matches_start
    exact ⟨[], _, q, .refl _, .inl remove⟩

/-! ### The rule -/

/-- The rule about recursive deletes. -/
def deleteRule : Rule :=
  .total "destructive-command" .idempotentOperations .mustFix "Recursive deletes are guarded"
    destructiveCommand

theorem rule?_destructiveCommand :
    Catalog.rule? "destructive-command" = some deleteRule := by
  rfl

/-- A failure of the step stops its job, and its script deletes something that nothing guards. -/
def Deletes (st : Step) : Prop :=
  st.continueOnError = false ∧ ∃ run, st.run = some run ∧
    (unguardedDelete? false (Script.logicalLineChars run.value)).isSome

theorem exists_deleteRule_iff {w : Workflow} {s : Settings} {p : String} :
    (∃ f ∈ (deleteRule.evaluate w s).findings, f.location = p) ↔
      ∃ x ∈ w.steps, Pointer.child x.2.path "run" = p ∧ Deletes x.2 := by
  have listed : (∃ f ∈ (deleteRule.evaluate w s).findings, f.location = p) ↔
      ∃ d ∈ destructiveCommand w s, d.location = p := by
    simp [Rule.evaluate, deleteRule, Rule.total, Rule.stamp]
  rw [listed]
  simp only [destructiveCommand, List.mem_filterMap]
  constructor
  · rintro ⟨d, ⟨x, hx, h⟩, rfl⟩
    split at h
    next => cases h
    next stops =>
      obtain ⟨command, found, rfl⟩ := Option.map_eq_some_iff.mp h
      obtain ⟨run, hrun, found⟩ := Option.bind_eq_some_iff.mp found
      exact ⟨x, hx, rfl, by simpa using stops, run, hrun, Option.isSome_of_eq_some found⟩
  · rintro ⟨x, hx, rfl, stops, run, hrun, found⟩
    obtain ⟨command, found⟩ := Option.isSome_iff_exists.mp found
    exact ⟨_, ⟨x, hx, by
      rw [if_neg (by simp [stops]), hrun, Option.bind_some, found, Option.map_some]⟩, by rfl⟩

theorem RmLine.isSome_unguardedDelete?_iff (l : RmLine) :
    (unguardedDelete? false [l.text]).isSome ↔ l.IsRecursive := by
  rw [unguardedDelete?]
  constructor
  · intro h
    refine (destructive_occursIn_iff l).mp ?_
    rw [Pattern.occursIn]
    cases found : destructive.search l.text with
    | none => simp [found, unguardedDelete?] at h
    | some _ => rfl
  · intro h
    obtain ⟨q, remove⟩ := h.matches_start
    have matched : destructive.Matches (.start l.text) q := .inl remove
    obtain ⟨stop, found⟩ := search_of_matches_start matched
    -- Nothing stands before a match at the beginning.
    have unguarded : existenceCheck.occursIn (l.text.take 0) = false := by
      rw [List.take_zero]
      decide
    rw [found]
    show (if false || existenceCheck.occursIn (l.text.take 0) then _ else _ : Option _).isSome
    rw [unguarded]
    rfl

/-- A command line of `rm` has a match if and only if one of its options asks for recursion,
whatever options stand before it. A script that is nothing but such a line has a finding exactly
then, unless the line is continued or a failure of the step does not stop its job. -/
theorem recursiveDeletes_exact (l : RmLine) :
    Catalog.rule? "destructive-command" = some deleteRule ∧
    (destructive.occursIn l.text ↔ l.IsRecursive) ∧
    ∀ text doc, Tree.load text = .ok doc → ∀ x ∈ (Workflow.ofDocument doc).steps,
      ∀ run, x.2.run = some run → x.2.continueOnError = false →
      (run.value.toList = l.text ∨ run.value.toList = l.text ++ ['\n']) →
      l.text.getLast? ≠ some '\\' → ∀ s : Settings,
        ((∃ f ∈ (deleteRule.evaluate (.ofDocument doc) s).findings,
          f.location = Pointer.child x.2.path "run") ↔ l.IsRecursive) := by
  refine ⟨rule?_destructiveCommand, destructive_occursIn_iff l, ?_⟩
  intro text doc loaded x hx run hrun stops script complete s
  rw [exists_deleteRule_iff, ← l.isSome_unguardedDelete?_iff,
    ← l.logicalLineChars_eq complete script]
  have distinct := Tree.Document.nodup_pointers (Tree.load_distinct loaded)
  constructor
  · rintro ⟨y, hy, place, -, run', hrun', found⟩
    have path : y.2.path = x.2.path := by
      rw [← Tree.Pointer.parent_child y.2.path "run", place, Tree.Pointer.parent_child]
    rw [Step.run, Workflow.node_eq_of_path_eq distinct hy hx path] at hrun'
    cases hrun.symm.trans hrun'
    exact found
  · intro found
    exact ⟨x, hx, rfl, stops, run, hrun, found⟩

/-- A step with one command. -/
def lateText : String := "jobs:\n  a:\n    steps:\n    - run: rm -f  --recursive x\n"

/-- `rm` with a short option, a long one and an operand. -/
def lateLine : RmLine where
  options := [⟨1, ['-', 'f'], by decide, by decide, by simp; decide, by decide⟩,
    ⟨2, "--recursive".toList, by decide, by decide, by simp; decide, by decide⟩]
  operands := [⟨1, ['x'], by decide, by decide, by simp; decide, by decide⟩]
  isOption := by
    intro t ht
    rcases List.mem_cons.mp ht with rfl | ht
    · exact .inl ⟨['f'], by decide, by simp, rfl⟩
    · obtain rfl := List.mem_singleton.mp ht
      exact .inr ⟨'r', "ecursive".toList, by decide, by simp; decide, rfl, by decide⟩
  isOperand := by
    intro t ht
    obtain rfl := List.mem_singleton.mp ht
    decide

theorem recursiveDeletes_exact_late : ∃ doc x run,
    Tree.load lateText = .ok doc ∧
    x ∈ (Workflow.ofDocument doc).steps ∧ x.2.run = some run ∧ run.value.toList = lateLine.text ∧
    destructive.occursIn lateLine.text ∧
    ∃ f ∈ (deleteRule.evaluate (.ofDocument doc) {}).findings,
      f.location = "/jobs/a/steps/0/run" := by
  obtain ⟨doc, loaded, found⟩ := Tree.exists_of_toOption (show
    (Tree.load lateText).toOption.map (fun doc =>
      (Workflow.ofDocument doc).steps.map fun x =>
        (Pointer.child x.2.path "run", x.2.continueOnError, x.2.run.map (·.value.toList))) =
      some [("/jobs/a/steps/0/run", false, some lateLine.text)] by
    decide +kernel)
  obtain ⟨x, steps, found⟩ := List.map_eq_singleton_iff.mp found
  obtain ⟨place, found⟩ := Prod.mk.inj found
  obtain ⟨stops, found⟩ := Prod.mk.inj found
  obtain ⟨run, hrun, script⟩ := Option.map_eq_some_iff.mp found
  have hx : x ∈ (Workflow.ofDocument doc).steps := steps ▸ List.mem_cons_self
  have recursive : lateLine.IsRecursive :=
    ⟨_, List.mem_cons_of_mem _ List.mem_cons_self, .inr rfl⟩
  obtain ⟨-, occurs, finding⟩ := recursiveDeletes_exact lateLine
  refine ⟨doc, x, run, loaded, hx, hrun, script, occurs.mpr recursive, ?_⟩
  rw [← place]
  exact (finding _ doc loaded x hx run hrun stops (.inl script) (by decide) {}).mpr recursive

end FlowLint.Security
