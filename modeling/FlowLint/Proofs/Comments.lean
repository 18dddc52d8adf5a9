import FlowLint.Proofs.Appending
import FlowLint.Proofs.Table

/-! Where the comments of a document stand. The comment of a line begins with a number sign at the
beginning of the line or behind a blank. If that blank is a gap of YAML then the sign stands outside
the text of every plain scalar (`Tree.comments_outside_plain`). It may stand between quotes or in a
block scalar. -/

namespace FlowLint

/-! ### Lines -/

namespace Text

/-- The character `c` stands in the line with the number `k`, which begins behind `front` and holds
`pre` before it and `s` behind it. -/
structure InLine (text : List Char) (k : Nat) (front pre : List Char) (c : Char)
    (s after : List Char) : Prop where
  split : text = front ++ pre ++ c :: after
  number : (lineList (front ++ pre ++ [c])).length = k + 1
  first : front = [] ↔ k = 0
  ended : ∀ d ∈ front.getLast?, endsLine d = true
  rest : (lineList (c :: after)).head? = some (c :: s)

variable {text pre s front after : List Char} {k : Nat} {c e : Char}

/-- A text with the end of a line before it has one line more before the others. -/
theorem InLine.behind {line : List Char} (h : InLine s k front pre c line after)
    (start : List Char) (last : ∃ e ∈ start.getLast?, endsLine e = true)
    (one : (lineList (start ++ (front ++ pre ++ [c]))).length = k + 2) :
    InLine (start ++ s) (k + 1) (start ++ front) pre c line after where
  split := by rw [h.split]; simp
  number := by simpa using one
  first := by
    obtain ⟨e, he, -⟩ := last
    simpa using fun empty => by simp [empty] at he
  ended := by
    intro d hd
    rw [List.getLast?_append] at hd
    cases front_last : front.getLast? with
    | none =>
      obtain ⟨e, he, ends⟩ := last
      rw [front_last, he] at hd
      obtain rfl : e = d := by simpa using hd
      exact ends
    | some d' =>
      rw [front_last] at hd
      exact h.ended d (by simpa [front_last] using hd)
  rest := h.rest

/-- Every character of a line stands in the text. -/
theorem exists_inLine (h : (lineList text)[k]? = some (pre ++ c :: s)) :
    ∃ front after, InLine text k front pre c s after := by
  fun_induction lineList text generalizing k pre with
  | case1 => cases h
  | case2 rest ih =>
    cases k with
    | zero => simp at h
    | succ k =>
      obtain ⟨front, after, inLine⟩ := ih h
      exact ⟨_, after, inLine.behind ['\r', '\n'] ⟨'\n', rfl, rfl⟩
        (congrArg Nat.succ inLine.number)⟩
  | case3 e rest apart ends ih =>
    cases k with
    | zero => simp at h
    | succ k =>
      obtain ⟨front, after, inLine⟩ := ih h
      refine ⟨_, after, inLine.behind [e] ⟨e, rfl, ends⟩ ?_⟩
      rw [List.singleton_append, lineList_cons_of_ends ends]
      · exact congrArg Nat.succ inLine.number
      · intro s' hc hs
        refine apart (s' ++ after) hc ?_
        rw [inLine.split, ← List.cons_append, ← hs]
        simp
  | case4 e rest apart solid empty ih =>
    obtain rfl : rest = [] := by
      cases rest with
      | nil => rfl
      | cons d rest => exact absurd empty (lineList_ne_nil d rest)
    cases k with
    | succ k => simp at h
    | zero =>
      obtain ⟨rfl, rfl, rfl⟩ : pre = [] ∧ c = e ∧ s = [] := by
        cases pre <;> simp_all
      have whole := lineList_singleton solid
      exact ⟨[], [], rfl, by simp [whole], by simp, by simp, by simp [whole]⟩
  | case5 e rest apart solid line lines read ih =>
    cases k with
    | zero =>
      cases pre with
      | nil =>
        obtain ⟨rfl, rfl⟩ : e = c ∧ line = s := by simpa using h
        exact ⟨[], rest, rfl, by simp [lineList_singleton solid], by simp, by simp,
          by rw [lineList_cons_of_solid solid read]; rfl⟩
      | cons p pre =>
        obtain ⟨rfl, rfl⟩ : e = p ∧ line = pre ++ c :: s := by simpa using h
        have here : (lineList rest)[0]? = some (pre ++ c :: s) := by rw [read]; rfl
        obtain ⟨front, after, inLine⟩ := ih here
        obtain rfl := inLine.first.mpr rfl
        refine ⟨[], after, by rw [inLine.split]; rfl, ?_, by simp, by simp, inLine.rest⟩
        rw [List.nil_append, List.cons_append, length_lineList_cons_of_solid solid]
        · exact inLine.number
        · exact List.ne_nil_of_length_eq_add_one inLine.number
    | succ k =>
      have there : (lineList rest)[k + 1]? = some (pre ++ c :: s) := by rw [read]; exact h
      obtain ⟨front, after, inLine⟩ := ih there
      obtain ⟨d, front, rfl⟩ := List.exists_cons_of_ne_nil (mt inLine.first.mp k.succ_ne_zero)
      refine ⟨e :: d :: front, after, by rw [inLine.split]; rfl, ?_, by simp, ?_, inLine.rest⟩
      · rw [List.cons_append, List.cons_append, length_lineList_cons_of_solid solid]
        · exact inLine.number
        · exact List.ne_nil_of_length_eq_add_one inLine.number
      · simpa using inLine.ended

end Text

namespace Yaml

/-- No comment begins in the own text of a plain scalar. -/
theorem Event.OwnText.quiet {text : List Char} {value : String} {start stop own : Position}
    (h : OwnText (Token.ofText text).1 value .plain start stop own) :
    Quiet text own.index stop.index := by
  cases h with
  | bare mem kind | behind mem kind =>
    exact ((Token.reads_ofText text).sound _ mem).quiet (by rw [kind]; rfl)
  | empty => exact quiet_self text _

end Yaml

open Yaml (Event Token)

namespace Tree

/-- A comment follows a number sign at the beginning of its line or behind a blank. -/
theorem commentIn_eq_some {atGap : Bool} {line comment : List Char}
    (h : commentIn atGap line = some comment) : ∃ pre, line = pre ++ '#' :: comment ∧
      (pre = [] ∧ atGap = true ∨ ∃ d ∈ pre.getLast?, Text.isBlank d = true) := by
  induction line generalizing atGap with
  | nil => cases h
  | cons c rest ih =>
    rw [commentIn] at h
    split at h
    next sign =>
      obtain ⟨rfl, gap⟩ : c = '#' ∧ atGap = true := by simpa using sign
      cases h
      exact ⟨[], rfl, .inl ⟨rfl, gap⟩⟩
    next =>
      obtain ⟨pre, rfl, ⟨rfl, blank⟩ | ⟨d, hd, blank⟩⟩ := ih h
      · exact ⟨[c], rfl, .inr ⟨c, rfl, blank⟩⟩
      · refine ⟨c :: pre, rfl, .inr ⟨d, ?_, blank⟩⟩
        rw [List.getLast?_cons, hd]
        rfl

/-- The comment of a line stands behind a number sign which has `before` before it in the text. -/
structure IsComment (text : List Char) (line : Nat) (before after : List Char) (comment : String) :
    Prop where
  split : text = before ++ '#' :: after
  number : (Text.lineList (before ++ ['#'])).length = line
  gap : ∀ c ∈ before.getLast?, Text.isBlank c = true
  rest : ∃ s, (Text.lineList ('#' :: after)).head? = some ('#' :: s) ∧
    comment = .ofList (Text.trimChars s)

theorem Document.line?_eq_some {doc : Document} {line : Nat} {l : String}
    (h : doc.line? line = some l) :
    ∃ k, line = k + 1 ∧ (Text.lineList doc.text.toList)[k]? = some l.toList := by
  unfold line? at h
  split at h
  · cases h
  next there =>
    obtain ⟨k, rfl⟩ := Nat.exists_eq_succ_of_ne_zero (by simpa using there)
    refine ⟨k, rfl, ?_⟩
    rw [doc.lines_eq, Text.lines, Nat.succ_sub_one, List.getElem?_map] at h
    obtain ⟨chars, read, rfl⟩ := Option.map_eq_some_iff.mp h
    rw [read, String.toList_ofList]

theorem Document.exists_isComment {doc : Document} {line : Nat} {comment : String}
    (h : doc.commentAt line = some comment) :
    ∃ before after, IsComment doc.text.toList line before after comment := by
  obtain ⟨l, there, found⟩ := Option.bind_eq_some_iff.mp h
  obtain ⟨k, rfl, read⟩ := line?_eq_some there
  obtain ⟨s, inside, rfl⟩ := Option.map_eq_some_iff.mp found
  obtain ⟨pre, split, gap⟩ := commentIn_eq_some inside
  obtain ⟨front, after, inLine⟩ := Text.exists_inLine (split ▸ read)
  refine ⟨front ++ pre, after, inLine.split, inLine.number, ?_, s, inLine.rest, rfl⟩
  intro c hc
  rcases gap with ⟨rfl, -⟩ | ⟨d, hd, blank⟩
  · exact Text.isBlank_of_endsLine (inLine.ended c (by simpa using hc))
  · rw [List.getLast?_append, hd] at hc
    obtain rfl : d = c := by simpa using hc
    exact blank

/-- A marker is found in the comment of the line or of the line above. -/
theorem Document.exists_comment_of_hasMarker {doc : Document} {line : Nat} {p : String → Bool}
    (h : doc.hasMarker line p = true) : ∃ l comment, (l = line ∨ l + 1 = line) ∧
      doc.commentAt l = some comment ∧ p comment = true := by
  rw [hasMarker, Bool.or_eq_true, Bool.and_eq_true, Bool.and_eq_true] at h
  rcases h with here | ⟨⟨inside, -⟩, above⟩
  · obtain ⟨comment, found, marked⟩ := (Option.any_eq_true ..).mp here
    exact ⟨line, comment, .inl rfl, found, marked⟩
  · obtain ⟨l, there⟩ := Option.isSome_iff_exists.mp inside
    obtain ⟨k, rfl, -⟩ := line?_eq_some there
    obtain ⟨comment, found, marked⟩ := (Option.any_eq_true ..).mp above
    exact ⟨k, comment, .inr rfl, found, marked⟩

theorem text_of_load {text : String} {doc : Document} (h : load text = .ok doc) :
    doc.text = text := by
  unfold load at h
  split at h
  · cases h
    rfl
  · cases read : Node.ofEvents (Text.lines text) (Event.ofText text.toList) with
    | error e => rw [read] at h; cases h
    | ok root => rw [read] at h; cases h; rfl

/-- The number sign behind which a comment is read stands outside the own text of every plain
scalar, if it stands behind a gap. Markers are found in such comments alone: in that of a line or of
the line above. -/
theorem comments_outside_plain {text : String} {doc : Document} (loaded : load text = .ok doc) :
    (∀ line comment, doc.commentAt line = some comment →
      ∃ before after, IsComment text.toList line before after comment ∧
        ((∀ c ∈ before.getLast?, Yaml.isGap c = true) → ∀ value anchor start stop,
          .scalar value .plain anchor start stop ∈ (Event.ofText text.toList).events →
          ∃ own, Event.OwnText (Token.ofText text.toList).1 value .plain start stop own ∧
            ¬ (own.index ≤ before.length ∧ before.length < stop.index))) ∧
    ∀ line p, doc.hasMarker line p = true → ∃ l comment, (l = line ∨ l + 1 = line) ∧
      doc.commentAt l = some comment ∧ p comment = true := by
  refine ⟨fun line comment found => ?_, fun line p => Document.exists_comment_of_hasMarker⟩
  obtain ⟨before, after, isComment⟩ := Document.exists_isComment found
  rw [text_of_load loaded] at isComment
  refine ⟨before, after, isComment, fun gap value anchor start stop among => ?_⟩
  obtain ⟨-, own, placed⟩ := Event.stands_ofText text.toList _ among
  refine ⟨own, placed, fun ⟨begun, unfinished⟩ => ?_⟩
  obtain ⟨c, hc, solid⟩ := placed.quiet before after isComment.split begun unfinished
  rw [gap c hc] at solid
  cases solid

/-- The first number sign belongs to a plain scalar, the second begins a comment. -/
def hashedText : String := "a: b#c # reviewed\n"

theorem comments_outside_plain_hashed : ∃ doc, load hashedText = .ok doc ∧
    doc.commentAt 1 = some "reviewed" ∧
    ∃ before after, IsComment hashedText.toList 1 before after "reviewed" ∧
      ∀ value anchor start stop,
        .scalar value .plain anchor start stop ∈ (Event.ofText hashedText.toList).events →
        ∃ own, Event.OwnText (Token.ofText hashedText.toList).1 value .plain start stop own ∧
          ¬ (own.index ≤ before.length ∧ before.length < stop.index) := by
  obtain ⟨doc, loaded, comment⟩ := exists_of_toOption (show
    (load hashedText).toOption.map (·.commentAt 1) = some (some "reviewed") by decide +kernel)
  obtain ⟨before, after, isComment, outside⟩ :=
    (comments_outside_plain loaded).1 1 "reviewed" comment
  have gaps : hashedText.toList.all (fun c => !Text.isBlank c || Yaml.isGap c) = true := by
    decide +kernel
  refine ⟨doc, loaded, comment, before, after, isComment, outside fun c hc => ?_⟩
  have among : c ∈ hashedText.toList := by
    rw [isComment.split]
    exact List.mem_append_left _ (List.mem_of_getLast? hc)
  simpa [isComment.gap c hc] using List.all_eq_true.mp gaps c among

/-- The number sign stands between quotes. -/
def quotedText : String := "a: \"b # reviewed\"\n"

/-- A comment may be read inside a scalar. -/
theorem not_forall_comment_outside : ¬ ∀ text doc, load text = .ok doc →
    ∀ line comment, doc.commentAt line = some comment →
    ∀ before after, IsComment text.toList line before after comment →
    ∀ value style anchor start stop,
      .scalar value style anchor start stop ∈ (Event.ofText text.toList).events →
      ¬ (start.index ≤ before.length ∧ before.length < stop.index) := by
  intro all
  obtain ⟨doc, loaded, comment⟩ := exists_of_toOption (show
    (load quotedText).toOption.map (·.commentAt 1) = some (some "reviewed\"") by decide +kernel)
  have isComment : IsComment quotedText.toList 1 "a: \"b ".toList " reviewed\"\n".toList
      "reviewed\"" :=
    ⟨rfl, by decide +kernel, by rintro c ⟨⟩; decide, " reviewed\"".toList, by decide +kernel,
      by decide +kernel⟩
  have among : .scalar "b # reviewed" .doubleQuoted none ⟨3, 0, 3⟩ ⟨17, 0, 17⟩ ∈
      (Event.ofText quotedText.toList).events := by
    decide +kernel
  exact all _ doc loaded 1 _ comment _ _ isComment _ _ _ _ _ among (by decide +kernel)

end Tree

end FlowLint
