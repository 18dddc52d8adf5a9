import FlowLint.Proofs.ExpressionPieces
import FlowLint.Proofs.Trimming
import FlowLint.Rule.Title

/-! The suggested title. `suggest` changes the first letters of some parts between spaces and
nothing else (`Mended`). It knows these parts by what they hold, so a part need not be the word
without a capital for which it is changed, and a word need not be a part. In a title in which the
words stand by themselves (`Aligned`) the expressions stay and just the words get their capitals. -/

namespace FlowLint.Title

open Expression (Piece Renewed pieces inners innersIn blankedIn)
open Text (Recased isBlank isLetter isCapital upperChars)

/-! ### Parts between spaces -/

/-- What a text holds between its spaces. -/
def partsOf (text : List Char) : List (List Char) := Text.pieces (· == ' ') text

variable {s w part rest : List Char} {parts parts' bad : List (List Char)} {c : Char}

theorem partsOf_append (s t : List Char) : partsOf (s ++ ' ' :: t) = partsOf s ++ partsOf t :=
  Text.pieces_append_sep (by decide) s t

theorem partsOf_of_not_mem (h : ' ' ∉ s) : partsOf s = [s] :=
  Text.pieces_of_no_sep fun _ hc => beq_false_of_ne fun same => h (same ▸ hc)

theorem partsOf_ne_nil (s : List Char) : partsOf s ≠ [] := Text.pieces_ne_nil _ s

theorem partsOf_cons_space (s : List Char) : partsOf (' ' :: s) = [] :: partsOf s :=
  partsOf_append [] s

theorem partsOf_cons (h : c ≠ ' ') (read : partsOf s = part :: parts) :
    partsOf (c :: s) = (c :: part) :: parts :=
  Text.pieces_append_of_not_sep (w := [c]) (by simpa using h) read

theorem joinSpaces_cons (part : List Char) (h : parts ≠ []) :
    joinSpaces (part :: parts) = part ++ ' ' :: joinSpaces parts := by
  cases parts with
  | nil => exact absurd rfl h
  | cons _ _ => rfl

theorem joinSpaces_append (h : parts ≠ []) (h' : parts' ≠ []) :
    joinSpaces (parts ++ parts') = joinSpaces parts ++ ' ' :: joinSpaces parts' := by
  induction parts with
  | nil => exact absurd rfl h
  | cons part parts ih =>
    cases parts with
    | nil => exact joinSpaces_cons part h'
    | cons next parts =>
      rw [List.cons_append, joinSpaces_cons _ (by simp), ih (List.cons_ne_nil _ _),
        joinSpaces_cons _ (List.cons_ne_nil _ _), List.append_assoc, List.cons_append]

theorem joinSpaces_partsOf (s : List Char) : joinSpaces (partsOf s) = s := by
  induction s with
  | nil => rfl
  | cons c s ih =>
    obtain ⟨part, parts, read⟩ := List.exists_cons_of_ne_nil (partsOf_ne_nil s)
    rw [read] at ih
    by_cases space : c = ' '
    · rw [space, partsOf_cons_space, read, joinSpaces_cons _ (List.cons_ne_nil _ _), ih]
      rfl
    · rw [partsOf_cons space read, ← ih]
      cases parts <;> rfl

/-- A part holds characters of the text, and no space. -/
theorem mem_of_mem_partsOf (h : part ∈ partsOf s) : ∀ c ∈ part, c ∈ s ∧ c ≠ ' ' := by
  induction s generalizing part with
  | nil =>
    rw [List.mem_singleton.mp h]
    exact List.forall_mem_nil _
  | cons d s ih =>
    have later {part : List Char} (h : part ∈ partsOf s) : ∀ c ∈ part, c ∈ d :: s ∧ c ≠ ' ' :=
      fun c hc => (ih h c hc).imp_left (List.mem_cons_of_mem d)
    obtain ⟨first, parts, read⟩ := List.exists_cons_of_ne_nil (partsOf_ne_nil s)
    by_cases space : d = ' '
    · rw [space, partsOf_cons_space] at h
      rcases List.mem_cons.mp h with rfl | h
      · exact List.forall_mem_nil _
      · exact later h
    · rw [partsOf_cons space read] at h
      rcases List.mem_cons.mp h with rfl | h
      · refine List.forall_mem_cons.mpr ⟨⟨List.mem_cons_self, space⟩, ?_⟩
        exact later (read ▸ List.mem_cons_self)
      · exact later (read ▸ List.mem_cons_of_mem _ h)

theorem partsOf_joinSpaces (there : parts ≠ []) (h : ∀ part ∈ parts, ' ' ∉ part) :
    partsOf (joinSpaces parts) = parts := by
  induction parts with
  | nil => exact absurd rfl there
  | cons part parts ih =>
    obtain ⟨hpart, hparts⟩ := List.forall_mem_cons.mp h
    by_cases last : parts = []
    · subst last
      exact partsOf_of_not_mem hpart
    · rw [joinSpaces_cons _ last, partsOf_append, partsOf_of_not_mem hpart, ih last hparts]
      rfl

theorem recased_joinSpaces (h : List.Forall₂ Recased parts parts') :
    Recased (joinSpaces parts) (joinSpaces parts') := by
  induction h with
  | nil => exact .nil
  | @cons part part' parts parts' first others ih =>
    cases others with
    | nil => exact first
    | cons next others => exact first.append (.keep ' ' ih)

/-! ### Words with a capital -/

/-- A part with a capital if it is one of the words without one. -/
def mend (bad : List (List Char)) (part : List Char) : List Char :=
  if bad.contains part then capitalize part else part

/-- The word begins with a letter, leading characters aside. -/
def HasLetter (w : List Char) : Prop := ∃ c ∈ (stripLeading w).head?, isLetter c

/-- The upper case of the first letter begins with a capital. -/
def HasCapital (w : List Char) : Prop :=
  ∃ c ∈ (stripLeading w).head?, ∃ d ∈ (upperChars c).head?, isCapital d

instance (w : List Char) : Decidable (HasCapital w) :=
  have (c : Char) : Decidable (∃ d ∈ (upperChars c).head?, isCapital d) :=
    Option.decidableExistsMem _
  Option.decidableExistsMem _

theorem takeWhile_append_stripLeading (w : List Char) :
    w.takeWhile isLeading ++ stripLeading w = w := List.takeWhile_append_dropWhile

theorem capitalize_eq (first : stripLeading w = c :: rest) :
    capitalize w = w.takeWhile isLeading ++ (upperChars c ++ rest) := by
  rw [capitalize, first]

theorem capitalize_recased (h : HasLetter w) : Recased w (capitalize w) := by
  obtain ⟨c, head, letter⟩ := h
  obtain ⟨rest, first⟩ := List.head?_eq_some_iff.mp head
  have split := takeWhile_append_stripLeading w
  rw [capitalize_eq first]
  rw [first] at split
  have raised : Recased (w.takeWhile isLeading ++ c :: rest)
      (w.takeWhile isLeading ++ (upperChars c ++ rest)) :=
    (Recased.refl _).append (.raise letter (.refl rest))
  rwa [split] at raised

theorem mend_recased (h : ∀ w ∈ bad, HasLetter w) (part : List Char) :
    Recased part (mend bad part) := by
  unfold mend
  split
  next found => exact capitalize_recased (h part (List.contains_iff_mem.mp found))
  next => exact .refl part

theorem mend_of_not_mem (h : part ∉ bad) : mend bad part = part := by
  rw [mend, if_neg (by simpa using h)]

theorem mend_nil_iff (h : ∀ w ∈ bad, HasLetter w) : mend bad w = [] ↔ w = [] :=
  (mend_recased h w).eq_nil_iff.symm

/-- The second text is the first if that is none of the words, else it is the first with its first
letter, behind leading characters, in upper case. -/
def Mended (bad : List (List Char)) (w w' : List Char) : Prop :=
  w ∉ bad ∧ w' = w ∨
    w ∈ bad ∧ ∃ lead c rest, (∀ d ∈ lead, isLeading d) ∧ isLeading c = false ∧ isLetter c ∧
      w = lead ++ c :: rest ∧ w' = lead ++ (upperChars c ++ rest)

theorem mended_mend (h : ∀ w ∈ bad, HasLetter w) (w : List Char) : Mended bad w (mend bad w) := by
  by_cases found : w ∈ bad
  · obtain ⟨c, head, letter⟩ := h w found
    obtain ⟨rest, first⟩ := List.head?_eq_some_iff.mp head
    have split := takeWhile_append_stripLeading w
    rw [first] at split
    have stops : isLeading c = false := by
      have head := List.head?_dropWhile_not isLeading w
      rw [← stripLeading, first] at head
      simpa using head
    refine .inr ⟨found, w.takeWhile isLeading, c, rest, List.all_eq_true.mp List.all_takeWhile,
      stops, letter, split.symm, ?_⟩
    rw [mend, if_pos (by simpa using found), capitalize_eq first]
  · exact .inl ⟨found, mend_of_not_mem found⟩

theorem forall₂_mended (h : ∀ w ∈ bad, HasLetter w) (ws : List (List Char)) :
    List.Forall₂ (Mended bad) ws (ws.map (mend bad)) :=
  List.forall₂_map_right_iff.mpr (List.forall₂_same.mpr fun w _ => mended_mend h w)

/-! ### Violations -/

theorem exists_breaks_of_mem {policy : Casing} {count i : Nat} {words : List (List Char)}
    (h : w ∈ breaksFrom policy count i words) : ∃ inner, breaks policy inner w = true := by
  induction words generalizing i with
  | nil => cases h
  | cons word words ih =>
    rw [breaksFrom] at h
    split at h
    next broken =>
      rcases List.mem_cons.mp h with rfl | h
      · exact ⟨_, broken⟩
      · exact ih h
    next => exact ih h

theorem hasLetter_of_breaks {policy : Casing} {inner : Bool} (h : breaks policy inner w = true) :
    HasLetter w := by
  unfold breaks at h
  split at h
  next => cases h
  next c rest first =>
    simp only [Bool.and_eq_true] at h
    exact ⟨c, by rw [first]; rfl, h.1.1.1⟩

theorem hasLetter_of_mem {policy : Casing} {text : List Char}
    (h : w ∈ violationChars policy text) : HasLetter w := by
  obtain ⟨inner, broken⟩ := exists_breaks_of_mem h
  exact hasLetter_of_breaks broken

theorem isLeading_of_isCapital (h : isCapital c = true) : isLeading c = false := by
  cases leading : isLeading c with
  | false => rfl
  | true =>
    have none : ∀ d ∈ "([\x7b'\"\x60<".toList, isCapital d = false := by simp; decide
    rw [none c (List.contains_iff_mem.mp leading)] at h
    cases h

/-- A word with a capital does not break the policy. -/
theorem breaks_capitalize {policy : Casing} {inner : Bool} (h : HasCapital w) :
    breaks policy inner (capitalize w) = false := by
  obtain ⟨c, head, d, raised, capital⟩ := h
  obtain ⟨rest, first⟩ := List.head?_eq_some_iff.mp head
  obtain ⟨more, upper⟩ := List.head?_eq_some_iff.mp raised
  have begins : stripLeading (capitalize w) = d :: (more ++ rest) := by
    rw [capitalize_eq first, upper]
    refine Text.dropWhile_append_of_forall (List.all_eq_true.mp List.all_takeWhile) ?_
    rintro _ ⟨⟩
    exact isLeading_of_isCapital capital
  simp [breaks, begins, capital]

theorem breaksFrom_mend {policy : Casing} {count i : Nat} {words : List (List Char)}
    (listed : ∀ w ∈ breaksFrom policy count i words, w ∈ bad) (capital : ∀ w ∈ bad, HasCapital w) :
    breaksFrom policy count i (words.map (mend bad)) = [] := by
  induction words generalizing i with
  | nil => rfl
  | cons word words ih =>
    have kept : breaks policy (0 < i && i + 1 < count) (mend bad word) = false := by
      by_cases found : word ∈ bad
      · rw [mend, if_pos (by simpa using found)]
        exact breaks_capitalize (capital word found)
      · rw [mend_of_not_mem found, Bool.eq_false_iff]
        intro broken
        rw [breaksFrom, if_pos broken] at listed
        exact found (listed word List.mem_cons_self)
    rw [List.map_cons, breaksFrom, kept]
    refine ih fun w hw => listed w ?_
    rw [breaksFrom]
    split
    · exact List.mem_cons_of_mem _ hw
    · exact hw

/-! ### Titles in which the words stand by themselves -/

/-- Between the spaces of a title that belong to no expression there is a word alone, or there is
something in which none of the words occurs: neither as a word nor as what stands between spaces,
expressions included. -/
inductive Aligned (bad : List (List Char)) : List Piece → Prop where
  | word {w : List Char} : (∀ c ∈ w, isBlank c = false) → Aligned bad (w.map .char)
  | other {ps : List Piece} : (∀ w ∈ Text.words (blankedIn ps), w ∉ bad) →
      (∀ part ∈ partsOf (ps.flatMap Piece.chars), part ∉ bad) → Aligned bad ps
  | join {ps qs : List Piece} : Aligned bad ps → Aligned bad qs →
      Aligned bad (ps ++ .char ' ' :: qs)

theorem aligned_joinSpaces (h : ∀ part ∈ parts, ∀ c ∈ part, isBlank c = false) :
    Aligned bad ((joinSpaces parts).map .char) := by
  induction parts with
  | nil => exact .word (List.forall_mem_nil _)
  | cons part parts ih =>
    obtain ⟨first, others⟩ := List.forall_mem_cons.mp h
    by_cases last : parts = []
    · rw [last]
      exact .word first
    · rw [joinSpaces_cons part last, List.map_append, List.map_cons]
      exact (Aligned.word first).join (ih others)

/-- The words of a title without expressions stand by themselves if its blanks are spaces. -/
theorem aligned_of_spaces (h : ∀ c ∈ s, isBlank c → c = ' ') : Aligned bad (s.map .char) := by
  have solid : ∀ part ∈ partsOf s, ∀ c ∈ part, isBlank c = false := by
    intro part hpart c hc
    obtain ⟨there, other⟩ := mem_of_mem_partsOf hpart c hc
    exact Bool.eq_false_iff.mpr (mt (h c there) other)
  rw [← joinSpaces_partsOf s]
  exact aligned_joinSpaces solid

/-- What becomes of the pieces of a title if the words in it stand by themselves. -/
theorem Aligned.exists_renewed {ps : List Piece} (letters : ∀ w ∈ bad, HasLetter w)
    (h : Aligned bad ps) :
    ∃ qs, Renewed ps qs ∧
      qs.flatMap Piece.chars = joinSpaces ((partsOf (ps.flatMap Piece.chars)).map (mend bad)) ∧
      innersIn qs = innersIn ps ∧
      Text.words (blankedIn qs) = (Text.words (blankedIn ps)).map (mend bad) := by
  induction h with
  | @word w solid =>
    have no_space : ' ' ∉ w := fun there => absurd (solid ' ' there) (by decide)
    have recased := mend_recased letters w
    refine ⟨(mend bad w).map .char, .of_recased recased, ?_, ?_, ?_⟩
    · rw [Expression.flatMap_chars_map_char, Expression.flatMap_chars_map_char,
        partsOf_of_not_mem no_space]
      rfl
    · rw [Expression.innersIn_map_char, Expression.innersIn_map_char]
    · rw [Expression.blankedIn_map_char, Expression.blankedIn_map_char, Text.words_of_solid solid,
        Text.words_of_solid (recased.solid solid)]
      by_cases none : w = []
      · rw [if_pos none, if_pos ((mend_nil_iff letters).mpr none)]
        rfl
      · rw [if_neg none, if_neg (mt (mend_nil_iff letters).mp none)]
        rfl
  | @other ps words parts =>
    have same {l : List (List Char)} (h : ∀ w ∈ l, w ∉ bad) : l.map (mend bad) = l :=
      (List.map_congr_left fun w hw => mend_of_not_mem (h w hw)).trans (List.map_id l)
    refine ⟨ps, .refl ps, ?_, rfl, (same words).symm⟩
    rw [same parts, joinSpaces_partsOf]
  | @join ps qs _ _ ihp ihq =>
    obtain ⟨ps', hps, madep, innersp, wordsp⟩ := ihp
    obtain ⟨qs', hqs, madeq, innersq, wordsq⟩ := ihq
    -- The space is no part of an expression, so it separates pieces, parts and words alike.
    refine ⟨ps' ++ .char ' ' :: qs', hps.append (.keep ' ' hqs), ?_, ?_, ?_⟩
    · rw [Expression.flatMap_chars_append_char, Expression.flatMap_chars_append_char,
        partsOf_append, List.map_append, joinSpaces_append, madep, madeq]
      · simpa using partsOf_ne_nil _
      · simpa using partsOf_ne_nil _
    · rw [Expression.innersIn_append_char, Expression.innersIn_append_char, innersp, innersq]
    · have blank : isBlank ' ' = true := by decide
      rw [Expression.blankedIn_append_char, Expression.blankedIn_append_char,
        Text.words_append_blank blank, Text.words_append_blank blank, wordsp, wordsq,
        List.map_append]

/-! ### The suggested title -/

theorem toList_suggest (policy : Casing) (text : String) :
    (suggest policy text).toList =
      joinSpaces ((partsOf text.toList).map (mend (violationChars policy text.toList))) :=
  String.toList_ofList

theorem partsOf_suggest (policy : Casing) (text : String) :
    partsOf (suggest policy text).toList =
      (partsOf text.toList).map (mend (violationChars policy text.toList)) := by
  rw [toList_suggest]
  refine partsOf_joinSpaces (by simpa using partsOf_ne_nil _) ?_
  intro part hpart
  obtain ⟨old, hold, rfl⟩ := List.mem_map.mp hpart
  have kept : ∀ c ∈ mend (violationChars policy text.toList) old, c ≠ ' ' := by
    refine (mend_recased (fun _ => hasLetter_of_mem) old).forall_mem ?_ fun c hc =>
      (mem_of_mem_partsOf hold c hc).2
    rintro _ inert rfl
    exact absurd inert.solid (by decide)
  exact fun there => kept ' ' there rfl

theorem suggest_recased (policy : Casing) (text : String) :
    Recased text.toList (suggest policy text).toList := by
  have one_by_one : List.Forall₂ Recased (partsOf text.toList)
      ((partsOf text.toList).map (mend (violationChars policy text.toList))) :=
    List.forall₂_map_right_iff.mpr
      (List.forall₂_same.mpr fun part _ => mend_recased (fun _ => hasLetter_of_mem) part)
  have := recased_joinSpaces one_by_one
  rwa [joinSpaces_partsOf, ← toList_suggest] at this

/-- What becomes of a title in which the words stand by themselves. -/
theorem suggest_aligned {policy : Casing} {text : String}
    (h : Aligned (violationChars policy text.toList) (Expression.pieces text.toList)) :
    inners (suggest policy text).toList = inners text.toList ∧
      wordsOf (suggest policy text).toList =
        (wordsOf text.toList).map (mend (violationChars policy text.toList)) := by
  obtain ⟨cut, whole⟩ := Expression.exists_isCut text.toList
  obtain ⟨qs, renewed, made, same, words⟩ := h.exists_renewed fun _ => hasLetter_of_mem
  -- The pieces are read again as they were put together, since only letters became capitals.
  have read : Expression.pieces (suggest policy text).toList = qs := by
    rw [toList_suggest]
    rw [whole] at made
    rw [← made, (cut.renewed renewed).pieces_eq]
  refine ⟨?_, ?_⟩
  · show innersIn (Expression.pieces _) = _
    rw [read, same]
    rfl
  · show Text.words (blankedIn (Expression.pieces _)) = _
    rw [read, words]
    rfl

/-- The suggested title differs in first letters of parts between spaces, where these are words
without a capital: so in every word and in every expression there are at most some letters in upper
case. If the words without a capital stand by themselves, the expressions stay, just these words
get capitals, and if upper case has capitals for them, no word is without one. -/
theorem suggest_mended (policy : Casing) (text : String) :
    List.Forall₂ (Mended (violationChars policy text.toList)) (partsOf text.toList)
        (partsOf (suggest policy text).toList) ∧
      List.Forall₂ Recased (wordsOf text.toList) (wordsOf (suggest policy text).toList) ∧
      List.Forall₂ Recased (inners text.toList) (inners (suggest policy text).toList) ∧
      (Aligned (violationChars policy text.toList) (Expression.pieces text.toList) →
        inners (suggest policy text).toList = inners text.toList ∧
          List.Forall₂ (Mended (violationChars policy text.toList)) (wordsOf text.toList)
            (wordsOf (suggest policy text).toList) ∧
          ((∀ w ∈ violationChars policy text.toList, HasCapital w) →
            violations policy (suggest policy text) = [])) := by
  have letters : ∀ w ∈ violationChars policy text.toList, HasLetter w := fun _ => hasLetter_of_mem
  have recased := suggest_recased policy text
  refine ⟨?_, (Expression.blanked_recased recased).words, Expression.inners_recased recased, ?_⟩
  · rw [partsOf_suggest]
    exact forall₂_mended letters _
  · intro aligned
    obtain ⟨same, words⟩ := suggest_aligned aligned
    refine ⟨same, ?_, fun capital => ?_⟩
    · rw [words]
      exact forall₂_mended letters _
    · rw [violations, violationChars, words, List.length_map]
      exact congrArg (List.map _) (breaksFrom_mend (fun _ h => h) capital)

theorem suggest_mended_spaced :
    violations .allWords "build $\x7b\x7b x \x7d\x7d the app" = ["build", "the", "app"] ∧
      violations .allWords (suggest .allWords "build $\x7b\x7b x \x7d\x7d the app") = [] := by
  refine ⟨by decide +kernel, ?_⟩
  have read : Expression.pieces "build $\x7b\x7b x \x7d\x7d the app".toList =
      "build".toList.map .char ++ .char ' ' :: ([.expression " x ".toList] ++
        .char ' ' :: "the app".toList.map .char) := by decide +kernel
  have aligned : Aligned
      (violationChars .allWords "build $\x7b\x7b x \x7d\x7d the app".toList)
      (Expression.pieces "build $\x7b\x7b x \x7d\x7d the app".toList) := by
    rw [read]
    refine .join (.word ?_) (.join (.other ?_ ?_) (aligned_of_spaces ?_))
    · simp
      decide
    · decide +kernel
    · decide +kernel
    · simp
      decide
  exact ((suggest_mended .allWords _).2.2.2 aligned).2.2 (by decide +kernel)

/-- A word between tabs stays without a capital, and what stands in an expression gets one if it is
also a word without one. -/
theorem not_forall_repaired :
    (¬ ∀ policy text, violations policy (suggest policy text) = []) ∧
      ¬ ∀ policy text, inners (suggest policy text).toList = inners text.toList := by
  constructor
  · intro h
    exact absurd (h .allWords "build\tapp") (by decide +kernel)
  · intro h
    exact absurd (h .allWords "x $\x7b\x7b x \x7d\x7d") (by decide +kernel)

end FlowLint.Title
