import FlowLint.Proofs.Recasing
import FlowLint.Workflow.Expression

/-! The pieces of a text, and texts with letters in upper case. The pieces make up the text, and
they are known by what makes them up (`exists_isCut`, `IsCut.pieces_eq`); if letters are put into
upper case, then no expression begins or ends elsewhere (`renewed_pieces`). -/

namespace FlowLint

namespace Expression

open Text (Inert Recased isLetter upperChars)

/-! ### Cutting a text into its pieces -/

/-- The piece as it stands in the text. -/
def Piece.chars : Piece → List Char
  | .char c => [c]
  | .expression inner => opening ++ (inner ++ closing)

theorem not_inert_of_mem {c : Char} (h : c ∈ opening ++ closing) : ¬ Inert c := by
  intro inert
  refine inert.other ?_
  simpa [opening, closing] using h

section

variable {s t inner rest w : List Char} {c : Char}

theorem untilClosing_of_closing (h : closing <+: s) : untilClosing s = some [] := by
  obtain ⟨t, rfl⟩ := h
  rfl

theorem untilClosing_cons (h : ¬ closing <+: c :: s) :
    untilClosing (c :: s) = (untilClosing s).map (c :: ·) := by
  rw [untilClosing, if_neg (by rwa [List.isPrefixOf_iff_prefix])]

theorem exists_of_untilClosing (h : untilClosing s = some inner) :
    ∃ rest, s = inner ++ (closing ++ rest) := by
  induction s generalizing inner with
  | nil => cases h
  | cons c s ih =>
    by_cases ends : closing <+: c :: s
    · rw [untilClosing_of_closing ends] at h
      obtain ⟨rest, split⟩ := ends
      cases h
      exact ⟨rest, split.symm⟩
    · rw [untilClosing_cons ends] at h
      obtain ⟨inner', found, rfl⟩ := Option.map_eq_some_iff.mp h
      obtain ⟨rest, rfl⟩ := ih found
      exact ⟨rest, rfl⟩

theorem not_closing_prefix_of_inert (h : Inert c) : ¬ closing <+: c :: s := by
  rintro ⟨t, split⟩
  exact not_inert_of_mem (c := '\x7d') (by decide) ((List.cons.inj split).1 ▸ h)

theorem untilClosing_append_of_inert (h : ∀ c ∈ w, Inert c) :
    untilClosing (w ++ s) = (untilClosing s).map (w ++ ·) := by
  induction w with
  | nil => simp
  | cons c w ih =>
    obtain ⟨hc, hw⟩ := List.forall_mem_cons.mp h
    rw [List.cons_append, untilClosing_cons (not_closing_prefix_of_inert hc), ih hw,
      Option.map_map]
    rfl

theorem inner?_append (h : untilClosing s = some inner) :
    inner? (opening ++ s) = some inner := by
  rw [inner?, if_pos (List.isPrefixOf_iff_prefix.mpr (List.prefix_append _ _)), List.drop_left, h]

theorem exists_of_inner? (h : inner? s = some inner) :
    ∃ t, s = opening ++ t ∧ untilClosing t = some inner := by
  rw [inner?] at h
  split at h
  next begins =>
    obtain ⟨t, rfl⟩ := List.isPrefixOf_iff_prefix.mp begins
    rw [List.drop_left] at h
    exact ⟨t, rfl, h⟩
  next => cases h

theorem piecesFrom_eq (k : Nat) (s : List Char) : piecesFrom k s = pieces (s.drop k) := by
  induction s generalizing k with
  | nil => cases k <;> rfl
  | cons c s ih =>
    cases k with
    | zero => rfl
    | succ k => rw [piecesFrom, ih, List.drop_succ_cons]

theorem pieces_cons (h : inner? (c :: s) = none) : pieces (c :: s) = .char c :: pieces s := by
  rw [pieces, piecesFrom, h]
  rfl

theorem pieces_expression (h : untilClosing (inner ++ (closing ++ rest)) = some inner) :
    pieces (opening ++ (inner ++ (closing ++ rest))) = .expression inner :: pieces rest := by
  show piecesFrom 0 ('$' :: ('\x7b' :: '\x7b' :: (inner ++ (closing ++ rest)))) = _
  have found : inner? ('$' :: ('\x7b' :: '\x7b' :: (inner ++ (closing ++ rest)))) = some inner :=
    inner?_append h
  have behind : ('\x7b' :: '\x7b' :: (inner ++ (closing ++ rest))).drop (inner.length + 4) =
      rest := by
    show (inner ++ (closing ++ rest)).drop (inner.length + 2) = rest
    rw [List.drop_append]
    simp [closing]
  rw [piecesFrom, found]
  show Piece.expression inner :: piecesFrom (inner.length + 4) _ = _
  rw [piecesFrom_eq, behind]

end

/-- The pieces are those of the text that they make up. -/
inductive IsCut : List Piece → Prop where
  | nil : IsCut []
  | char {c : Char} {ps : List Piece} :
      inner? (c :: ps.flatMap Piece.chars) = none → IsCut ps → IsCut (.char c :: ps)
  | expression {inner : List Char} {ps : List Piece} :
      untilClosing (inner ++ (closing ++ ps.flatMap Piece.chars)) = some inner → IsCut ps →
        IsCut (.expression inner :: ps)

theorem IsCut.pieces_eq {ps : List Piece} (h : IsCut ps) :
    pieces (ps.flatMap Piece.chars) = ps := by
  induction h with
  | nil => rfl
  | char none _ ih =>
    rw [List.flatMap_cons, Piece.chars, List.singleton_append, pieces_cons none, ih]
  | expression found _ ih =>
    rw [List.flatMap_cons, Piece.chars, List.append_assoc, List.append_assoc,
      pieces_expression found, ih]

/-- The pieces of a text make it up. -/
theorem exists_isCut (s : List Char) : IsCut (pieces s) ∧ (pieces s).flatMap Piece.chars = s := by
  generalize length : s.length = n
  induction n using Nat.strongRecOn generalizing s with
  | ind n ih =>
    cases s with
    | nil => exact ⟨.nil, rfl⟩
    | cons c s =>
      cases found : inner? (c :: s) with
      | none =>
        obtain ⟨cut, whole⟩ := ih s.length (by simp [← length]) s rfl
        rw [pieces_cons found]
        refine ⟨.char (by rwa [whole]) cut, ?_⟩
        rw [List.flatMap_cons, whole, Piece.chars, List.singleton_append]
      | some inner =>
        obtain ⟨t, split, ends⟩ := exists_of_inner? found
        obtain ⟨rest, rfl⟩ := exists_of_untilClosing ends
        have shorter : rest.length < n := by
          rw [← length, split]
          simp [opening, closing]
          omega
        obtain ⟨cut, whole⟩ := ih rest.length shorter rest rfl
        rw [split, pieces_expression ends]
        refine ⟨.expression (by rwa [whole]) cut, ?_⟩
        rw [List.flatMap_cons, whole, Piece.chars, List.append_assoc, List.append_assoc]

/-! ### Pieces in upper case -/

/-- The second pieces are the first with some letters in upper case. -/
inductive Renewed : List Piece → List Piece → Prop where
  | nil : Renewed [] []
  | keep (c : Char) {ps qs : List Piece} : Renewed ps qs → Renewed (.char c :: ps) (.char c :: qs)
  | raise {c : Char} {ps qs : List Piece} :
      isLetter c → Renewed ps qs → Renewed (.char c :: ps) ((upperChars c).map .char ++ qs)
  | expression {inner inner' : List Char} {ps qs : List Piece} :
      Recased inner inner' → Renewed ps qs →
        Renewed (.expression inner :: ps) (.expression inner' :: qs)

theorem Renewed.refl (ps : List Piece) : Renewed ps ps := by
  induction ps with
  | nil => exact .nil
  | cons p ps ih =>
    cases p with
    | char c => exact .keep c ih
    | expression inner => exact .expression (.refl inner) ih

theorem Renewed.append {ps ps' qs qs' : List Piece} (h : Renewed ps ps') (h' : Renewed qs qs') :
    Renewed (ps ++ qs) (ps' ++ qs') := by
  induction h with
  | nil => exact h'
  | keep c _ ih => exact .keep c ih
  | raise letter _ ih =>
    rw [List.append_assoc]
    exact .raise letter ih
  | expression recased _ ih => exact .expression recased ih

theorem Renewed.of_recased {s t : List Char} (h : Recased s t) :
    Renewed (s.map .char) (t.map .char) := by
  induction h with
  | nil => exact .nil
  | keep c _ ih => exact .keep c ih
  | raise letter _ ih =>
    rw [List.map_append]
    exact .raise letter ih

theorem flatMap_chars_map_char (s : List Char) : (s.map Piece.char).flatMap Piece.chars = s := by
  induction s with
  | nil => rfl
  | cons c s ih => rw [List.map_cons, List.flatMap_cons, ih, Piece.chars, List.singleton_append]

theorem flatMap_chars_append_char (ps : List Piece) (c : Char) (qs : List Piece) :
    (ps ++ .char c :: qs).flatMap Piece.chars =
      ps.flatMap Piece.chars ++ c :: qs.flatMap Piece.chars := by
  rw [List.flatMap_append, List.flatMap_cons, Piece.chars, List.singleton_append]

theorem Renewed.flatMap_chars {ps qs : List Piece} (h : Renewed ps qs) :
    Recased (ps.flatMap Piece.chars) (qs.flatMap Piece.chars) := by
  induction h with
  | nil => exact .nil
  | keep c _ ih => exact .keep c ih
  | raise letter _ ih =>
    rw [List.flatMap_append, flatMap_chars_map_char]
    exact .raise letter ih
  | expression recased _ ih =>
    exact (((Recased.refl opening).append (recased.append (.refl closing))).append ih)

section

variable {s s' t t' : List Char}

theorem not_inert_of_mem_opening : ∀ c ∈ opening, ¬ Inert c :=
  fun _ hc => not_inert_of_mem (List.mem_append_left _ hc)

theorem not_inert_of_mem_closing : ∀ c ∈ closing, ¬ Inert c :=
  fun _ hc => not_inert_of_mem (List.mem_append_right _ hc)

/-- The first end of an expression stays the first one. -/
theorem untilClosing_recased (h : Recased s s') (h' : Recased t t') (ends : closing <+: t)
    (first : untilClosing (s ++ t) = some s) : untilClosing (s' ++ t') = some s' := by
  induction h with
  | nil => exact untilClosing_of_closing ((h'.prefix_iff not_inert_of_mem_closing).mp ends)
  | @keep c s s' h ih =>
    rw [List.cons_append] at first
    by_cases here : closing <+: c :: (s ++ t)
    · rw [untilClosing_of_closing here] at first
      cases first
    · rw [untilClosing_cons here] at first
      obtain ⟨s₀, found, same⟩ := Option.map_eq_some_iff.mp first
      cases same
      have still := mt ((Recased.keep c (h.append h')).prefix_iff not_inert_of_mem_closing).mpr here
      rw [List.cons_append, untilClosing_cons still, ih found]
      rfl
  | @raise c s s' letter h ih =>
    rw [List.cons_append,
      untilClosing_cons (not_closing_prefix_of_inert (Text.inert_of_isLetter letter))] at first
    obtain ⟨s₀, found, same⟩ := Option.map_eq_some_iff.mp first
    cases same
    rw [List.append_assoc, untilClosing_append_of_inert fun d hd =>
      Text.inert_of_mem_upperChars letter hd, ih found]
    rfl

theorem isSome_untilClosing_recased (h : Recased s t) :
    (untilClosing s).isSome = (untilClosing t).isSome := by
  induction h with
  | nil => rfl
  | @keep c s t h ih =>
    have same := (Recased.keep c h).prefix_iff not_inert_of_mem_closing
    by_cases here : closing <+: c :: s
    · rw [untilClosing_of_closing here, untilClosing_of_closing (same.mp here)]
    · rw [untilClosing_cons here, untilClosing_cons (mt same.mpr here), Option.isSome_map,
        Option.isSome_map, ih]
  | @raise c s t letter h ih =>
    rw [untilClosing_cons (not_closing_prefix_of_inert (Text.inert_of_isLetter letter)),
      untilClosing_append_of_inert fun d hd => Text.inert_of_mem_upperChars letter hd,
      Option.isSome_map, Option.isSome_map, ih]

/-- An expression begins both texts or none. -/
theorem isSome_inner?_recased (h : Recased s t) : (inner? s).isSome = (inner? t).isSome := by
  by_cases begins : opening <+: s
  · obtain ⟨s, rfl⟩ := begins
    obtain ⟨front, t, rfl, fixed, rest⟩ := h.split
    rw [fixed.eq_of_not_inert not_inert_of_mem_opening, inner?, inner?,
      if_pos (List.isPrefixOf_iff_prefix.mpr (List.prefix_append _ _)),
      if_pos (List.isPrefixOf_iff_prefix.mpr (List.prefix_append _ _)), List.drop_left,
      List.drop_left, isSome_untilClosing_recased rest]
  · have absent := mt (h.prefix_iff not_inert_of_mem_opening).mpr begins
    rw [inner?, inner?, if_neg (by rwa [List.isPrefixOf_iff_prefix]),
      if_neg (by rwa [List.isPrefixOf_iff_prefix])]

end

theorem inner?_cons_of_inert {c : Char} {s : List Char} (h : Inert c) : inner? (c :: s) = none := by
  rw [inner?, if_neg]
  intro begins
  obtain ⟨t, split⟩ := List.isPrefixOf_iff_prefix.mp begins
  exact not_inert_of_mem (c := '$') (by decide) ((List.cons.inj split).1 ▸ h)

theorem IsCut.append_of_inert {w : List Char} {ps : List Piece} (h : ∀ c ∈ w, Inert c)
    (cut : IsCut ps) : IsCut (w.map .char ++ ps) := by
  induction w with
  | nil => exact cut
  | cons c w ih =>
    obtain ⟨hc, hw⟩ := List.forall_mem_cons.mp h
    exact .char (inner?_cons_of_inert hc) (ih hw)

theorem IsCut.renewed {ps qs : List Piece} (cut : IsCut ps) (h : Renewed ps qs) : IsCut qs := by
  induction h with
  | nil => exact .nil
  | keep c h ih =>
    cases cut with
    | char none cut =>
      refine .char ?_ (ih cut)
      rw [← Option.isNone_iff_eq_none, ← Option.not_isSome] at none ⊢
      rwa [← isSome_inner?_recased (.keep c h.flatMap_chars)]
  | raise letter _ ih =>
    cases cut with
    | char _ cut =>
      exact (ih cut).append_of_inert fun d hd => Text.inert_of_mem_upperChars letter hd
  | expression recased h ih =>
    cases cut with
    | expression found cut =>
      refine .expression ?_ (ih cut)
      exact untilClosing_recased recased ((Recased.refl closing).append h.flatMap_chars)
        (List.prefix_append _ _) found

theorem exists_renewed {ps : List Piece} {t : List Char}
    (h : Recased (ps.flatMap Piece.chars) t) :
    ∃ qs, Renewed ps qs ∧ qs.flatMap Piece.chars = t := by
  induction ps generalizing t with
  | nil =>
    cases h
    exact ⟨[], .nil, rfl⟩
  | cons p ps ih =>
    rw [List.flatMap_cons] at h
    cases p with
    | char c =>
      cases h with
      | keep _ h =>
        obtain ⟨qs, renewed, rfl⟩ := ih h
        exact ⟨_, .keep c renewed, rfl⟩
      | raise letter h =>
        obtain ⟨qs, renewed, rfl⟩ := ih h
        refine ⟨_, .raise letter renewed, ?_⟩
        rw [List.flatMap_append, flatMap_chars_map_char]
    | expression inner =>
      obtain ⟨_, t, rfl, whole, rest⟩ := h.split
      obtain ⟨_, _, rfl, front, whole⟩ := whole.split
      obtain ⟨inner', _, rfl, recased, back⟩ := whole.split
      rw [front.eq_of_not_inert not_inert_of_mem_opening,
        back.eq_of_not_inert not_inert_of_mem_closing]
      obtain ⟨qs, renewed, rfl⟩ := ih rest
      exact ⟨_, .expression recased renewed, rfl⟩

/-- The pieces of a text with letters in upper case are those of the text with letters in upper
case: no expression begins or ends elsewhere. -/
theorem renewed_pieces {s t : List Char} (h : Recased s t) : Renewed (pieces s) (pieces t) := by
  obtain ⟨cut, whole⟩ := exists_isCut s
  obtain ⟨qs, renewed, made⟩ := exists_renewed (whole.symm ▸ h)
  rw [← made, (cut.renewed renewed).pieces_eq]
  exact renewed

/-- The expressions among some pieces. -/
def innersIn (ps : List Piece) : List (List Char) :=
  ps.filterMap fun
    | .expression inner => some inner
    | .char _ => none

/-- Pieces with a space in the place of each expression. -/
def blankedIn (ps : List Piece) : List Char :=
  ps.map fun
    | .expression _ => ' '
    | .char c => c

theorem innersIn_append (ps qs : List Piece) : innersIn (ps ++ qs) = innersIn ps ++ innersIn qs :=
  List.filterMap_append

theorem blankedIn_append (ps qs : List Piece) :
    blankedIn (ps ++ qs) = blankedIn ps ++ blankedIn qs := List.map_append

theorem innersIn_append_char (ps : List Piece) (c : Char) (qs : List Piece) :
    innersIn (ps ++ .char c :: qs) = innersIn ps ++ innersIn qs :=
  innersIn_append ps (.char c :: qs)

theorem blankedIn_append_char (ps : List Piece) (c : Char) (qs : List Piece) :
    blankedIn (ps ++ .char c :: qs) = blankedIn ps ++ c :: blankedIn qs :=
  blankedIn_append ps (.char c :: qs)

theorem innersIn_map_char (s : List Char) : innersIn (s.map .char) = [] := by
  induction s with
  | nil => rfl
  | cons c s ih => exact ih

theorem blankedIn_map_char (s : List Char) : blankedIn (s.map .char) = s := by
  rw [blankedIn, List.map_map]
  exact List.map_id' s

theorem Renewed.innersIn {ps qs : List Piece} (h : Renewed ps qs) :
    List.Forall₂ Recased (innersIn ps) (innersIn qs) := by
  induction h with
  | nil => exact .nil
  | keep c _ ih => exact ih
  | raise _ _ ih =>
    rw [innersIn_append, innersIn_map_char]
    exact ih
  | expression recased _ ih => exact .cons recased ih

theorem Renewed.blankedIn {ps qs : List Piece} (h : Renewed ps qs) :
    Recased (blankedIn ps) (blankedIn qs) := by
  induction h with
  | nil => exact .nil
  | keep c _ ih => exact .keep c ih
  | raise letter _ ih =>
    rw [blankedIn_append, blankedIn_map_char]
    exact .raise letter ih
  | expression _ _ ih => exact .keep ' ' ih

theorem inners_recased {s t : List Char} (h : Recased s t) :
    List.Forall₂ Recased (inners s) (inners t) := (renewed_pieces h).innersIn

theorem blanked_recased {s t : List Char} (h : Recased s t) : Recased (blanked s) (blanked t) :=
  (renewed_pieces h).blankedIn

end Expression

end FlowLint
