import FlowLint.Workflow.Script
import Mathlib.Data.List.DropRight

/-! The commands of a script. Every line that holds a command is part of a logical line, unless it
continues a comment: a comment that ends with a backslash takes the lines behind it along
(`commands_kept`). -/

namespace FlowLint

namespace Text

variable {s t : List Char} {c : Char}

/-- The text does not begin with a blank. -/
def IsFlush (s : List Char) : Prop := ∀ c ∈ s.head?, isBlank c = false

theorem dropEndBlanks_append_cons (solid : isBlank c = false) (s t : List Char) :
    dropEndBlanks (s ++ c :: t) = s ++ c :: dropEndBlanks t := by
  have split : (s ++ c :: t).reverse = t.reverse ++ c :: s.reverse := by simp
  rw [dropEndBlanks, split, List.dropWhile_append]
  split
  next all_blank =>
    have nothing_left : dropEndBlanks t = [] := by
      rw [dropEndBlanks, List.isEmpty_iff.mp all_blank, List.reverse_nil]
    rw [List.dropWhile_cons_of_neg (by simp [solid]), nothing_left]
    simp
  next => simp [dropEndBlanks]

theorem dropEndBlanks_concat_blank (blank : isBlank c = true) (s : List Char) :
    dropEndBlanks (s ++ [c]) = dropEndBlanks s :=
  List.rdropWhile_concat_pos isBlank s c blank

theorem dropEndBlanks_idem (s : List Char) :
    dropEndBlanks (dropEndBlanks s) = dropEndBlanks s := List.rdropWhile_idempotent isBlank s

theorem isFlush_trimChars (s : List Char) : IsFlush (trimChars s) := by
  intro c hc
  rw [trimChars] at hc
  cases left : dropBlanks s with
  | nil =>
    rw [left] at hc
    cases hc
  | cons d rest =>
    have solid : isBlank d = false := by
      have := List.head?_dropWhile_not isBlank s
      rw [dropBlanks] at left
      simpa [left] using this
    have kept : dropEndBlanks (d :: rest) = d :: dropEndBlanks rest :=
      dropEndBlanks_append_cons solid [] rest
    rw [left, kept] at hc
    cases hc
    exact solid

end Text

namespace Script

open Text (IsFlush dropEndBlanks trimChars)

/-- The lines of a script without the blanks around them. -/
def physicalLines (script : String) : List (List Char) :=
  (Text.lineList script.toList).map trimChars

/-- The next line belongs to the line. -/
def isContinued (line : List Char) : Bool := line.getLast? == some '\\'

/-- What the line says: the backslash of a continued line goes, and so do the blanks before it. -/
def command (line : List Char) : List Char :=
  if isContinued line then dropEndBlanks line.dropLast else line

/-- The last of some lines, as far back as they are continued. -/
def unfinished (lines : List (List Char)) : List (List Char) := lines.rtakeWhile isContinued

/-- The first character of some lines. Backslashes that stand by themselves do not count. -/
def firstChar (lines : List (List Char)) : Option Char :=
  (lines.filter (· != ['\\'])).flatten.head?

theorem firstChar_append (lines rest : List (List Char)) :
    firstChar (lines ++ rest) = (firstChar lines).or (firstChar rest) := by
  rw [firstChar, List.filter_append, List.flatten_append, List.head?_append]
  rfl

theorem firstChar_singleton {line : List Char} (worded : line ≠ ['\\']) :
    firstChar [line] = line.head? := by
  rw [firstChar, List.filter_cons_of_pos (by simp [worded])]
  simp

/-! ### Lines that are put together -/

/-- A line behind the unfinished one. -/
def joined (pending line : List Char) : List Char :=
  if pending.isEmpty then line else pending ++ ' ' :: line

/-- What is unfinished behind a line that is continued. -/
def carried (pending line : List Char) : List Char := dropEndBlanks (joined pending line).dropLast

@[simp] theorem joined_nil (line : List Char) : joined [] line = line := rfl

theorem joined_of_ne_nil {pending : List Char} (h : pending ≠ []) (line : List Char) :
    joined pending line = pending ++ ' ' :: line := by
  rw [joined, List.isEmpty_eq_false_iff.mpr h]
  rfl

theorem isContinued_joined (pending line : List Char) :
    isContinued (joined pending line) = isContinued line := by
  by_cases h : pending = []
  · rw [h, joined_nil]
  · rw [joined_of_ne_nil h, isContinued, isContinued, List.getLast?_append]
    cases line with
    | nil => rfl
    | cons c rest => simp [List.getLast?_cons_cons]

theorem head?_joined (pending line : List Char) :
    (joined pending line).head? = pending.head?.or line.head? := by
  cases pending with
  | nil => rfl
  | cons c rest => rfl

theorem suffix_joined (pending line : List Char) : line <:+ joined pending line := by
  by_cases h : pending = []
  · subst h
    exact List.suffix_rfl
  · rw [joined_of_ne_nil h]
    exact (List.suffix_cons ' ' line).trans (List.suffix_append pending _)

theorem prefix_joined (pending line : List Char) : pending <+: joined pending line := by
  by_cases h : pending = []
  · subst h
    exact List.nil_prefix
  · rw [joined_of_ne_nil h]
    exact List.prefix_append pending _

/-- A line that is continued is a backslash, or it has a character before the backslash. -/
theorem continued_cases {line : List Char} (flush : IsFlush line)
    (continued : isContinued line = true) :
    line = ['\\'] ∨ ∃ c s, Text.isBlank c = false ∧ line = c :: (s ++ ['\\']) := by
  obtain ⟨s, rfl⟩ := List.getLast?_eq_some_iff.mp (eq_of_beq continued)
  cases s with
  | nil => exact .inl rfl
  | cons c s => exact .inr ⟨c, s, flush c rfl, rfl⟩

section Continued

variable {c : Char} (solid : Text.isBlank c = false) (s : List Char)
include solid

theorem command_continued : command (c :: (s ++ ['\\'])) = c :: dropEndBlanks s := by
  have continued : isContinued (c :: s ++ ['\\']) = true := by
    rw [isContinued, List.getLast?_concat, beq_self_eq_true]
  rw [← List.cons_append, command, if_pos continued, List.dropLast_concat]
  exact Text.dropEndBlanks_append_cons solid [] s

theorem carried_continued (pending : List Char) :
    carried pending (c :: (s ++ ['\\'])) = joined pending (c :: dropEndBlanks s) := by
  by_cases h : pending = []
  · rw [h, joined_nil, carried, joined_nil, ← List.cons_append, List.dropLast_concat]
    exact Text.dropEndBlanks_append_cons solid [] s
  · have before_c (t : List Char) : pending ++ ' ' :: c :: t = (pending ++ [' ']) ++ c :: t := by
      simp
    rw [carried, joined_of_ne_nil h, joined_of_ne_nil h, before_c, before_c, ← List.cons_append,
      ← List.append_assoc, List.dropLast_concat, Text.dropEndBlanks_append_cons solid]

end Continued

theorem carried_backslash {pending : List Char} (tight : dropEndBlanks pending = pending) :
    carried pending ['\\'] = pending := by
  by_cases h : pending = []
  · rw [h]
    rfl
  · have split : pending ++ [' ', '\\'] = (pending ++ [' ']) ++ ['\\'] := by simp
    rw [carried, joined_of_ne_nil h, split, List.dropLast_concat,
      Text.dropEndBlanks_concat_blank (by decide), tight]

theorem tight_carried (pending line : List Char) :
    dropEndBlanks (carried pending line) = carried pending line :=
  Text.dropEndBlanks_idem _

theorem command_suffix_carried {line : List Char} (flush : IsFlush line)
    (continued : isContinued line = true) (worded : line ≠ ['\\']) (pending : List Char) :
    command line <:+ carried pending line := by
  obtain rfl | ⟨c, s, solid, rfl⟩ := continued_cases flush continued
  · exact absurd rfl worded
  · rw [command_continued solid, carried_continued solid]
    exact suffix_joined pending _

section Carried

variable {pending line : List Char} (tight : dropEndBlanks pending = pending)
  (flush : IsFlush line) (continued : isContinued line = true)
include tight flush continued

theorem prefix_carried : pending <+: carried pending line := by
  obtain rfl | ⟨c, s, solid, rfl⟩ := continued_cases flush continued
  · have same := carried_backslash tight
    exact ⟨[], by rw [same, List.append_nil]⟩
  · rw [carried_continued solid]
    exact prefix_joined pending _

theorem head?_carried :
    (carried pending line).head? = pending.head?.or (firstChar [line]) := by
  obtain rfl | ⟨c, s, solid, rfl⟩ := continued_cases flush continued
  · rw [carried_backslash tight]
    exact (Option.or_none).symm
  · rw [carried_continued solid, head?_joined, firstChar_singleton (by simp)]
    rfl

end Carried

/-! ### Reading line after line -/

/-- What is unfinished behind some lines. It begins as the last unfinished lines do. -/
structure Carries (lines : List (List Char)) (pending : List Char) : Prop where
  first : pending.head? = firstChar (unfinished lines)
  tight : dropEndBlanks pending = pending

theorem Carries.start : Carries [] [] := ⟨rfl, rfl⟩

theorem Carries.reset (lines : List (List Char)) {line : List Char}
    (complete : isContinued line = false) : Carries (lines ++ [line]) [] := by
  refine ⟨?_, rfl⟩
  rw [unfinished, List.rtakeWhile_concat_neg _ _ _ (by simp [complete])]
  rfl

theorem Carries.step {lines : List (List Char)} {pending line : List Char}
    (carries : Carries lines pending) (flush : IsFlush line)
    (continued : isContinued line = true) : Carries (lines ++ [line]) (carried pending line) := by
  refine ⟨?_, tight_carried pending line⟩
  rw [head?_carried carries.tight flush continued, carries.first, unfinished, unfinished,
    List.rtakeWhile_concat_pos _ _ _ continued, firstChar_append]

/-- The line is neither empty nor a comment. -/
def isSpoken (line : List Char) : Bool := !(line.isEmpty || line.head? == some '#')

theorem isSpoken_iff {line : List Char} : isSpoken line = true ↔ ∃ c ∈ line.head?, c ≠ '#' := by
  cases line <;> simp [isSpoken]

theorem isSpoken_of_begins {s t : List Char} (spoken : isSpoken s = true) (begins : s <+: t) :
    isSpoken t = true := by
  obtain ⟨c, hc, other⟩ := isSpoken_iff.mp spoken
  obtain ⟨rest, rfl⟩ := begins
  exact isSpoken_iff.mpr ⟨c, by rw [List.head?_append, hc]; rfl, other⟩

theorem isSpoken_of_head? {s pending line : List Char}
    (first : s.head? = pending.head?.or line.head?) (no_comment : pending.head? ≠ some '#')
    (spoken : isSpoken line = true) : isSpoken s = true := by
  cases pending with
  | nil =>
    rw [isSpoken_iff, first]
    exact isSpoken_iff.mp spoken
  | cons c rest => exact isSpoken_iff.mpr ⟨c, first, fun h => no_comment (congrArg some h)⟩

theorem linesFrom_continued {raw : List Char} (continued : isContinued (trimChars raw) = true)
    (pending : List Char) (rest : List (List Char)) :
    linesFrom pending (raw :: rest) = linesFrom (carried pending (trimChars raw)) rest := by
  rw [← isContinued_joined pending] at continued
  exact if_pos continued

theorem linesFrom_complete {raw : List Char} (complete : isContinued (trimChars raw) = false)
    (pending : List Char) (rest : List (List Char)) :
    linesFrom pending (raw :: rest) =
      [joined pending (trimChars raw)].filter isSpoken ++ linesFrom [] rest := by
  rw [← isContinued_joined pending] at complete
  have opened : linesFrom pending (raw :: rest) =
      if !isSpoken (joined pending (trimChars raw)) then linesFrom [] rest
      else joined pending (trimChars raw) :: linesFrom [] rest := by
    rw [isSpoken, Bool.not_not]
    exact if_neg (by rw [← isContinued, ← joined, complete]; decide)
  rw [opened, List.filter_singleton]
  cases isSpoken (joined pending (trimChars raw)) <;> rfl

theorem linesFrom_nil (pending : List Char) :
    linesFrom pending [] = [pending].filter (· != []) := by
  cases pending <;> rfl

/-! ### What is kept -/

/-- A line that is unfinished reaches the logical lines, unless it is a comment. -/
theorem pending_kept (raws : List (List Char)) {pending : List Char}
    (tight : dropEndBlanks pending = pending) (spoken : isSpoken pending = true) :
    ∃ l ∈ linesFrom pending raws, pending <+: l := by
  induction raws generalizing pending with
  | nil =>
    have held : pending ≠ [] := by
      rintro rfl
      cases spoken
    exact ⟨pending, by simp [linesFrom_nil, held], List.prefix_rfl⟩
  | cons raw rest ih =>
    cases continued : isContinued (trimChars raw) with
    | true =>
      have begins := prefix_carried tight (Text.isFlush_trimChars raw) continued
      obtain ⟨l, hl, carried_begins⟩ :=
        ih (tight_carried pending _) (isSpoken_of_begins spoken begins)
      rw [linesFrom_continued continued]
      exact ⟨l, hl, begins.trans carried_begins⟩
    | false =>
      have begins := prefix_joined pending (trimChars raw)
      rw [linesFrom_complete continued, List.filter_cons_of_pos (isSpoken_of_begins spoken begins)]
      exact ⟨_, List.mem_cons_self, begins⟩

/-- The line is part of a logical line, unless it continues a comment. -/
theorem line_kept {lines : List (List Char)} {pending raw : List Char}
    (carries : Carries lines pending) (no_comment : firstChar (unfinished lines) ≠ some '#')
    (spoken : isSpoken (trimChars raw) = true) (worded : trimChars raw ≠ ['\\'])
    (rest : List (List Char)) :
    ∃ l ∈ linesFrom pending (raw :: rest), command (trimChars raw) <:+: l := by
  rw [← carries.first] at no_comment
  cases continued : isContinued (trimChars raw) with
  | true =>
    have flush := Text.isFlush_trimChars raw
    have first := head?_carried carries.tight flush continued
    rw [firstChar_singleton worded] at first
    obtain ⟨l, hl, begins⟩ := pending_kept rest (tight_carried pending _)
      (isSpoken_of_head? first no_comment spoken)
    rw [linesFrom_continued continued]
    exact ⟨l, hl, (command_suffix_carried flush continued worded pending).isInfix.trans
      begins.isInfix⟩
  | false =>
    have said : command (trimChars raw) = trimChars raw := if_neg (by rw [continued]; decide)
    rw [linesFrom_complete continued, said, List.filter_cons_of_pos
      (isSpoken_of_head? (head?_joined pending _) no_comment spoken)]
    exact ⟨_, List.mem_cons_self, (suffix_joined pending _).isInfix⟩

/-- What is read behind some lines begins with what they leave unfinished. -/
theorem exists_pending (before rest : List (List Char)) {lines : List (List Char)}
    {pending : List Char} (carries : Carries lines pending) :
    ∃ pending', Carries (lines ++ before.map trimChars) pending' ∧
      linesFrom pending' rest <:+ linesFrom pending (before ++ rest) := by
  induction before generalizing lines pending with
  | nil => exact ⟨pending, by simpa using carries, List.suffix_rfl⟩
  | cons raw before ih =>
    cases continued : isContinued (trimChars raw) with
    | true =>
      obtain ⟨pending', carries', shown⟩ :=
        ih (carries.step (Text.isFlush_trimChars raw) continued)
      rw [List.append_assoc] at carries'
      rw [List.cons_append, linesFrom_continued continued]
      exact ⟨pending', carries', shown⟩
    | false =>
      obtain ⟨pending', carries', shown⟩ := ih (Carries.reset lines continued)
      rw [List.append_assoc] at carries'
      rw [List.cons_append, linesFrom_complete continued]
      exact ⟨pending', carries', shown.trans (List.suffix_append _ _)⟩

theorem ne_nil_of_mem_linesFrom {raws : List (List Char)} {pending l : List Char}
    (hl : l ∈ linesFrom pending raws) : l ≠ [] := by
  induction raws generalizing pending with
  | nil =>
    rw [linesFrom_nil, List.mem_filter] at hl
    simpa using hl.2
  | cons raw rest ih =>
    cases continued : isContinued (trimChars raw) with
    | true =>
      rw [linesFrom_continued continued] at hl
      exact ih hl
    | false =>
      rw [linesFrom_complete continued, List.mem_append, List.mem_filter] at hl
      obtain ⟨-, spoken⟩ | hl := hl
      · rintro rfl
        cases spoken
      · exact ih hl

/-- The only logical line that can be a comment is the one that is unfinished at the end. -/
theorem exists_comment_iff (raws : List (List Char)) {lines : List (List Char)}
    {pending : List Char} (carries : Carries lines pending) :
    (∃ l ∈ linesFrom pending raws, l.head? = some '#') ↔
      firstChar (unfinished (lines ++ raws.map trimChars)) = some '#' := by
  induction raws generalizing lines pending with
  | nil =>
    rw [List.map_nil, List.append_nil, ← carries.first, linesFrom_nil]
    cases pending <;> simp
  | cons raw rest ih =>
    rw [List.map_cons, List.append_cons]
    cases continued : isContinued (trimChars raw) with
    | true =>
      rw [linesFrom_continued continued]
      exact ih (carries.step (Text.isFlush_trimChars raw) continued)
    | false =>
      rw [← ih (Carries.reset lines continued), linesFrom_complete continued]
      constructor
      · rintro ⟨l, hl, comment⟩
        rw [List.mem_append, List.mem_filter] at hl
        obtain ⟨-, spoken⟩ | hl := hl
        · obtain ⟨c, hc, other⟩ := isSpoken_iff.mp spoken
          rw [comment] at hc
          exact absurd (Option.some.inj hc).symm other
        · exact ⟨l, hl, comment⟩
      · rintro ⟨l, hl, comment⟩
        exact ⟨l, List.mem_append_right _ hl, comment⟩

theorem mem_logicalLines {script : String} {l : String} :
    l ∈ logicalLines script ↔ l.toList ∈ linesFrom [] (Text.lineList script.toList) := by
  rw [logicalLines, logicalLineChars, List.mem_map]
  constructor
  · rintro ⟨s, hs, rfl⟩
    rwa [String.toList_ofList]
  · exact fun hl => ⟨l.toList, hl, String.ofList_toList⟩

/-- The command of every line of a script is part of a logical line: of every line that is not
blank, no comment and not a backslash by itself, and that does not continue a comment. No logical
line is empty, and one is a comment exactly if the script ends within a continued comment. -/
theorem commands_kept (script : String) :
    (∀ before line after, physicalLines script = before ++ line :: after →
      line ≠ [] → line.head? ≠ some '#' → line ≠ ['\\'] →
      firstChar (unfinished before) ≠ some '#' →
      ∃ l ∈ logicalLines script, command line <:+: l.toList) ∧
    (∀ l ∈ logicalLines script, l ≠ "") ∧
    ((∃ l ∈ logicalLines script, l.toList.head? = some '#') ↔
      firstChar (unfinished (physicalLines script)) = some '#') := by
  refine ⟨fun before line after split solid no_comment worded outside => ?_, fun l hl => ?_, ?_⟩
  · obtain ⟨befores, rest, raws_split, rfl, shown⟩ := List.map_eq_append_iff.mp split
    obtain ⟨raw, afters, rfl, rfl, -⟩ := List.map_eq_cons_iff.mp shown
    have spoken : isSpoken (trimChars raw) = true := by simp [isSpoken, solid, no_comment]
    obtain ⟨pending, carries, read⟩ := exists_pending befores (raw :: afters) Carries.start
    obtain ⟨l, hl, part⟩ := line_kept carries outside spoken worded afters
    refine ⟨.ofList l, mem_logicalLines.mpr ?_, ?_⟩
    · rw [String.toList_ofList, raws_split]
      exact read.subset hl
    · rwa [String.toList_ofList]
  · rintro rfl
    exact ne_nil_of_mem_linesFrom (mem_logicalLines.mp hl) rfl
  · have ends := exists_comment_iff (Text.lineList script.toList) Carries.start
    rw [physicalLines, ← List.nil_append (List.map _ _), ← ends]
    constructor
    · rintro ⟨l, hl, comment⟩
      exact ⟨l.toList, mem_logicalLines.mp hl, comment⟩
    · rintro ⟨l, hl, comment⟩
      refine ⟨.ofList l, mem_logicalLines.mpr ?_, ?_⟩ <;> rwa [String.toList_ofList]

theorem commands_kept_clean :
    ∃ l ∈ logicalLines "# note\nmake \\\n  all\n\\\n  rm -rf x \\\n",
      "rm -rf x".toList <:+: l.toList := by
  have said : command "rm -rf x \\".toList = "rm -rf x".toList := by decide
  rw [← said]
  exact (commands_kept _).1 ["# note".toList, "make \\".toList, "all".toList, ['\\']]
    "rm -rf x \\".toList [] (by decide +kernel) (by decide) (by decide) (by decide) (by decide)

/-- A comment that ends with a backslash takes the line behind it along. -/
theorem not_forall_command_kept : ¬ ∀ script before line after,
    physicalLines script = before ++ line :: after →
    line ≠ [] → line.head? ≠ some '#' → line ≠ ['\\'] →
    ∃ l ∈ logicalLines script, command line <:+: l.toList := by
  intro kept
  have lost : logicalLines "# c\\\nrm -rf x" = [] := by decide +kernel
  obtain ⟨l, hl, -⟩ := kept "# c\\\nrm -rf x" ["# c\\".toList] "rm -rf x".toList []
    (by decide +kernel) (by decide) (by decide) (by decide)
  rw [lost] at hl
  cases hl

end Script

end FlowLint
