import FlowLint.Pattern.Matcher

/-! What a pattern matches. `Pattern.Matches` says from where to where a pattern matches, without an
order among the possibilities; the search finds a match if and only if there is one
(`isSome_run_iff`, `occursIn_iff`). In a regular pattern repetitions are just some matches in a row,
without the measures that keep the search finite (`matches_rep_iff`). -/

namespace FlowLint

/-! ### Spots -/

namespace Spot

variable {p q r : Spot} {s t : List Char} {c : Char}

/-- The second spot lies behind the first, with the text between them. -/
structure Reads (p : Spot) (s : List Char) (q : Spot) : Prop where
  after : p.after = s ++ q.after
  before : q.before = s.reverse ++ p.before
  offset : q.offset = p.offset + s.length
  edges : q.edges = p.edges

namespace Reads

theorem refl (p : Spot) : p.Reads [] p := ⟨rfl, rfl, rfl, rfl⟩

theorem trans (h : p.Reads s q) (h' : q.Reads t r) : p.Reads (s ++ t) r where
  after := by rw [h.after, h'.after, List.append_assoc]
  before := by rw [h'.before, h.before, List.reverse_append, List.append_assoc]
  offset := by rw [h'.offset, h.offset, List.length_append, Nat.add_assoc]
  edges := h'.edges.trans h.edges

/-- Where nothing is read, the spot stays the same. -/
theorem eq_of_nil (h : p.Reads [] q) : q = p := by
  cases p
  cases q
  have after := h.after
  have before := h.before
  have offset := h.offset
  have edges := h.edges
  simp_all

theorem head?_before (h : p.Reads (s ++ [c]) q) : q.before.head? = some c := by
  rw [h.before, List.reverse_append]
  rfl

theorem before_ne_nil (h : p.Reads s q) (there : s ≠ []) : q.before ≠ [] := by
  rw [h.before]
  simp [there]

theorem length_le (h : p.Reads s q) : s.length ≤ p.after.length := by
  rw [h.after, List.length_append]
  exact Nat.le_add_right _ _

end Reads

theorem next?_eq_some_iff : p.next? = some (c, q) ↔ p.Reads [c] q := by
  unfold next?
  constructor
  · intro h
    split at h
    next => cases h
    next d rest after =>
      cases h
      exact ⟨after, rfl, rfl, rfl⟩
  · intro h
    rw [h.after]
    obtain ⟨before, after, offset, edges⟩ := q
    have before_eq : before = c :: p.before := h.before
    have offset_eq : offset = p.offset + 1 := h.offset
    have edges_eq : edges = p.edges := h.edges
    rw [before_eq, offset_eq, edges_eq]
    rfl

/-- What stands behind a spot can be read. -/
theorem exists_reads (h : p.after = s ++ t) : ∃ q, p.Reads s q ∧ q.after = t :=
  ⟨{ p with before := s.reverse ++ p.before, after := t, offset := p.offset + s.length },
    ⟨h, rfl, rfl, rfl⟩, rfl⟩

/-- A text is read if its parts are read, one behind the other. -/
theorem reads_append_iff : p.Reads (s ++ t) r ↔ ∃ q, p.Reads s q ∧ q.Reads t r := by
  constructor
  · intro h
    have after := h.after
    rw [List.append_assoc] at after
    obtain ⟨q, front, rest⟩ := exists_reads after
    refine ⟨q, front, rest, ?_, ?_, ?_⟩
    · rw [h.before, front.before, List.reverse_append, List.append_assoc]
    · rw [h.offset, front.offset, List.length_append, Nat.add_assoc]
    · rw [h.edges, front.edges]
  · rintro ⟨q, front, back⟩
    exact front.trans back

/-- The same spot in a longer text, with more before and behind it. -/
def within (front back : List Char) (p : Spot) : Spot :=
  { p with
    before := p.before ++ front.reverse
    after := p.after ++ back
    offset := front.length + p.offset }

theorem Reads.within (h : p.Reads s q) (front back : List Char) :
    (p.within front back).Reads s (q.within front back) where
  after := by rw [Spot.within, h.after, List.append_assoc, Spot.within]
  before := by rw [Spot.within, h.before, List.append_assoc, Spot.within]
  offset := by rw [Spot.within, h.offset, ← Nat.add_assoc, Spot.within]
  edges := h.edges

theorem atWordEdge_within {front back : List Char} (before : front = [] ∨ p.before ≠ [])
    (after : back = [] ∨ p.after ≠ []) :
    (p.within front back).atWordEdge = p.atWordEdge := by
  have left : (p.before ++ front.reverse).head? = p.before.head? := by
    rcases before with rfl | there
    · rw [List.reverse_nil, List.append_nil]
    · obtain ⟨c, s, cons⟩ := List.exists_cons_of_ne_nil there
      rw [cons, List.cons_append, List.head?_cons, List.head?_cons]
  have right : (p.after ++ back).head? = p.after.head? := by
    rcases after with rfl | there
    · rw [List.append_nil]
    · obtain ⟨c, s, cons⟩ := List.exists_cons_of_ne_nil there
      rw [cons, List.cons_append, List.head?_cons, List.head?_cons]
  rw [atWordEdge, atWordEdge, atEdge, atEdge, within, left, right]

end Spot

/-! ### Matches -/

/-- `n` steps of a relation. -/
inductive Steps (R : Spot → Spot → Prop) : Nat → Spot → Spot → Prop where
  | none (p : Spot) : Steps R 0 p p
  | more {n : Nat} {p q r : Spot} : R p q → Steps R n q r → Steps R (n + 1) p r

namespace Steps

variable {R : Spot → Spot → Prop} {m n : Nat} {p q r : Spot}

theorem append (h : Steps R m p q) (h' : Steps R n q r) : Steps R (m + n) p r := by
  induction h with
  | none => rwa [Nat.zero_add]
  | more step _ ih =>
    rw [Nat.add_right_comm]
    exact .more step (ih h')

theorem split (h : Steps R (m + n) p r) : ∃ q, Steps R m p q ∧ Steps R n q r := by
  induction m generalizing p with
  | zero =>
    rw [Nat.zero_add] at h
    exact ⟨p, .none p, h⟩
  | succ m ih =>
    rw [Nat.add_right_comm] at h
    cases h with
    | more step rest =>
      obtain ⟨q, front, back⟩ := ih rest
      exact ⟨q, .more step front, back⟩

theorem map (f : Spot → Spot) (step : ∀ {p q}, R p q → R (f p) (f q)) (h : Steps R n p q) :
    Steps R n (f p) (f q) := by
  induction h with
  | none p => exact .none (f p)
  | more first _ ih => exact .more (step first) ih

theorem reads (h : Steps R n p q) (step : ∀ {p q}, R p q → ∃ s, p.Reads s q) :
    ∃ s, p.Reads s q := by
  induction h with
  | none p => exact ⟨[], .refl p⟩
  | more first _ ih =>
    obtain ⟨s, hs⟩ := step first
    obtain ⟨t, ht⟩ := ih
    exact ⟨s ++ t, hs.trans ht⟩

end Steps

/-- Up to `n` steps of a relation, of which all but the last move on. -/
inductive Rounds (R : Spot → Spot → Prop) : Nat → Spot → Spot → Prop where
  | none (n : Nat) (p : Spot) : Rounds R n p p
  | last {n : Nat} {p q : Spot} : R p q → ¬ p.offset < q.offset → Rounds R (n + 1) p q
  | more {n : Nat} {p q r : Spot} :
    R p q → p.offset < q.offset → Rounds R n q r → Rounds R (n + 1) p r

namespace Rounds

variable {R : Spot → Spot → Prop} {m n : Nat} {p q : Spot}

theorem weaken (h : Rounds R m p q) (more : m ≤ n) : Rounds R n p q := by
  induction h generalizing n with
  | none _ p => exact .none n p
  | last step stays =>
    cases n with
    | zero => cases more
    | succ n => exact .last step stays
  | more step moves _ ih =>
    cases n with
    | zero => cases more
    | succ n => exact .more step moves (ih (Nat.le_of_succ_le_succ more))

theorem exists_steps (h : Rounds R n p q) : ∃ m ≤ n, Steps R m p q := by
  induction h with
  | none n p => exact ⟨0, Nat.zero_le n, .none p⟩
  | @last n p q step _ => exact ⟨1, Nat.succ_le_succ (Nat.zero_le n), .more step (.none q)⟩
  | more step _ _ ih =>
    obtain ⟨m, few, steps⟩ := ih
    exact ⟨m + 1, Nat.succ_le_succ few, .more step steps⟩

variable (reads : ∀ {p q}, R p q → ∃ s, p.Reads s q)
include reads

/-- Steps that stay where they are can be left out. -/
theorem of_steps (h : Steps R n p q) : Rounds R n p q := by
  induction h with
  | none p => exact .none 0 p
  | @more n p q r step _ ih =>
    by_cases moves : p.offset < q.offset
    · exact .more step moves ih
    · obtain ⟨s, hs⟩ := reads step
      obtain rfl : s = [] := by
        have offset := hs.offset
        exact List.eq_nil_of_length_eq_zero (by omega)
      obtain rfl := hs.eq_of_nil
      exact ih.weaken n.le_succ

/-- There are not more steps that move on than characters. -/
theorem shorten (h : Rounds R n p q) : Rounds R (p.after.length + 1) p q := by
  induction h with
  | none n p => exact .none _ p
  | last step stays => exact .last step stays
  | @more n p q r step moves rounds ih =>
    obtain ⟨s, hs⟩ := reads step
    have offset := hs.offset
    have length := congrArg List.length hs.after
    rw [List.length_append] at length
    exact .more step moves (ih.weaken (by omega))

end Rounds

namespace Pattern

/-- The pattern matches from the first spot to the second. Of what it looks at, and of an atomic
part, only the first match counts. -/
def Matches : Pattern → Spot → Spot → Prop
  | .empty, p, q => q = p
  | .oneOf s, p, q => ∃ c, s.has c ∧ p.Reads [c] q
  | .place l, p, q => l.holds p ∧ q = p
  | .seq a b, p, r => ∃ q, a.Matches p q ∧ b.Matches q r
  | .alt a b, p, q => a.Matches p q ∨ b.Matches p q
  | .rep body least more _, p, r =>
    ∃ q, Steps body.Matches least p q ∧
      Rounds body.Matches (more.getD (q.after.length + 1)) q r
  | .ahead body wanted, p, q => look (body.run p some) wanted p some = some q
  | .behind width body wanted, p, q =>
    look ((p.back? width).bind fun start => body.run start some) wanted p some = some q
  | .atomic body, p, q => body.run p some = some q
  | .group n body, p, q => ∃ r, body.Matches (p.mark (.first n)) r ∧ q = r.mark (.last n)
  | .again n rule, p, q => ((p.kept? n).bind fun text => p.pass? rule text) = some q
  | .choose n kept missing, p, q =>
    if (p.kept? n).isSome then kept.Matches p q else missing.Matches p q

/-! ### The search -/

section

variable {body : Spot → Follow → Option Spot} {R : Spot → Spot → Prop}
  (spec : ∀ p k, (body p k).isSome ↔ ∃ q, R p q ∧ (k q).isSome)
include spec

theorem isSome_times_iff (n : Nat) (p : Spot) (k : Follow) :
    (times body n p k).isSome ↔ ∃ q, Steps R n p q ∧ (k q).isSome := by
  induction n generalizing p with
  | zero =>
    constructor
    · exact fun h => ⟨p, .none p, h⟩
    · rintro ⟨q, ⟨⟩, h⟩
      exact h
  | succ n ih =>
    rw [times, spec]
    constructor
    · rintro ⟨q, step, h⟩
      obtain ⟨r, steps, h⟩ := (ih q).mp h
      exact ⟨r, .more step steps, h⟩
    · rintro ⟨r, steps, h⟩
      cases steps with
      | more step steps => exact ⟨_, step, (ih _).mpr ⟨r, steps, h⟩⟩

theorem isSome_upTo_iff (greedy : Bool) (n : Nat) (p : Spot) (k : Follow) :
    (upTo body greedy n p k).isSome ↔ ∃ q, Rounds R n p q ∧ (k q).isSome := by
  induction n generalizing p with
  | zero =>
    constructor
    · exact fun h => ⟨p, .none 0 p, h⟩
    · rintro ⟨q, ⟨⟩, h⟩
      exact h
  | succ n ih =>
    -- Whatever is tried first, there is a match if it ends here or if there is another step.
    have either : (upTo body greedy (n + 1) p k).isSome ↔ (k p).isSome ∨
        ∃ q, R p q ∧ (if p.offset < q.offset then upTo body greedy n q k else k q).isSome := by
      rw [upTo, ← spec]
      cases greedy
      · simp [Option.isSome_or]
      · simp [Option.isSome_or, or_comm]
    rw [either]
    constructor
    · rintro (h | ⟨q, step, h⟩)
      · exact ⟨p, .none _ p, h⟩
      · split at h
        next moves =>
          obtain ⟨r, rounds, h⟩ := (ih q).mp h
          exact ⟨r, .more step moves rounds, h⟩
        next stays => exact ⟨q, .last step stays, h⟩
    · rintro ⟨r, rounds, h⟩
      cases rounds with
      | none => exact .inl h
      | last step stays => exact .inr ⟨r, step, by rwa [if_neg stays]⟩
      | more step moves rounds =>
        exact .inr ⟨_, step, by rw [if_pos moves]; exact (ih _).mpr ⟨r, rounds, h⟩⟩

end

theorem look_eq_bind (found : Option Spot) (wanted : Bool) (p : Spot) (k : Follow) :
    look found wanted p k = (look found wanted p some).bind k := by
  cases found <;> cases wanted <;> rfl

theorem isSome_bind_iff {found : Option Spot} {k : Follow} :
    (found.bind k).isSome ↔ ∃ q, found = some q ∧ (k q).isSome := by
  cases found <;> simp

/-- The search hands the end of some match on, if what follows accepts the end of one. -/
theorem isSome_run_iff (pat : Pattern) (p : Spot) (k : Follow) :
    (pat.run p k).isSome ↔ ∃ q, pat.Matches p q ∧ (k q).isSome := by
  induction pat generalizing p k with
  | empty => simp [run, Matches]
  | oneOf s =>
    rw [run]
    constructor
    · intro h
      split at h
      next c q hq =>
        by_cases found : s.has c
        · rw [if_pos found] at h
          exact ⟨q, ⟨c, found, Spot.next?_eq_some_iff.mp hq⟩, h⟩
        · rw [if_neg found] at h
          cases h
      next => cases h
    · rintro ⟨q, ⟨c, found, reads⟩, h⟩
      rw [Spot.next?_eq_some_iff.mpr reads]
      show (if s.has c then k q else none).isSome
      rwa [if_pos found]
  | place l =>
    rw [run]
    by_cases holds : l.holds p <;> simp [Matches, holds]
  | seq a b iha ihb =>
    simp only [run, Matches, iha, ihb]
    constructor
    · rintro ⟨q, ha, r, hb, h⟩
      exact ⟨r, ⟨q, ha, hb⟩, h⟩
    · rintro ⟨r, ⟨q, ha, hb⟩, h⟩
      exact ⟨q, ha, r, hb, h⟩
  | alt a b iha ihb =>
    simp only [run, Matches, Option.orElse_eq_or, Option.isSome_or, Bool.or_eq_true, iha, ihb,
      or_and_right, exists_or]
  | rep body least more greedy ih =>
    simp only [run, Matches, isSome_times_iff ih, isSome_upTo_iff ih]
    constructor
    · rintro ⟨q, first, r, others, h⟩
      exact ⟨r, ⟨q, first, others⟩, h⟩
    · rintro ⟨r, ⟨q, first, others⟩, h⟩
      exact ⟨q, first, r, others, h⟩
  | ahead body wanted => rw [run, look_eq_bind, isSome_bind_iff]; rfl
  | behind width body wanted => rw [run, look_eq_bind, isSome_bind_iff]; rfl
  | atomic body => rw [run, isSome_bind_iff]; rfl
  | group n body ih =>
    simp only [run, Matches, ih]
    constructor
    · rintro ⟨r, matched, h⟩
      exact ⟨_, ⟨r, matched, rfl⟩, h⟩
    · rintro ⟨_, ⟨r, matched, rfl⟩, h⟩
      exact ⟨r, matched, h⟩
  | again n rule => rw [run, isSome_bind_iff]; rfl
  | choose n kept missing ihk ihm =>
    rw [run]
    simp only [Matches]
    split
    · exact ihk p k
    · exact ihm p k

theorem isSome_matchAt_iff {pat : Pattern} {p : Spot} :
    (pat.matchAt p).isSome ↔ ∃ q, pat.Matches p q := by
  simp [matchAt, isSome_run_iff]

theorem isSome_searchFrom_iff (pat : Pattern) (after before : List Char) (n : Nat) :
    (pat.searchFrom after before n).isSome ↔
      ∃ s p q, Spot.Reads ⟨before, after, n, []⟩ s p ∧ pat.Matches p q := by
  induction after generalizing before n with
  | nil =>
    rw [searchFrom, Option.isSome_map, isSome_matchAt_iff]
    constructor
    · rintro ⟨q, matched⟩
      exact ⟨[], _, q, .refl _, matched⟩
    · rintro ⟨s, p, q, reads, matched⟩
      obtain rfl : s = [] := List.eq_nil_of_length_eq_zero (Nat.le_zero.mp reads.length_le)
      exact ⟨q, reads.eq_of_nil ▸ matched⟩
  | cons c rest ih =>
    rw [searchFrom]
    cases here : pat.matchAt ⟨before, c :: rest, n, []⟩ with
    | some q =>
      obtain ⟨q, matched⟩ := isSome_matchAt_iff.mp (Option.isSome_of_eq_some here)
      exact ⟨fun _ => ⟨[], _, q, .refl _, matched⟩, fun _ => rfl⟩
    | none =>
      show (pat.searchFrom rest (c :: before) (n + 1)).isSome ↔ _
      rw [ih]
      have step : Spot.Reads ⟨before, c :: rest, n, []⟩ [c] ⟨c :: before, rest, n + 1, []⟩ :=
        ⟨rfl, rfl, rfl, rfl⟩
      constructor
      · rintro ⟨s, p, q, reads, matched⟩
        exact ⟨[c] ++ s, p, q, step.trans reads, matched⟩
      · rintro ⟨s, p, q, reads, matched⟩
        cases s with
        | nil =>
          rw [reads.eq_of_nil] at matched
          rw [Option.eq_none_iff_forall_ne_some] at here
          obtain ⟨r, found⟩ := Option.isSome_iff_exists.mp (isSome_matchAt_iff.mpr ⟨q, matched⟩)
          exact absurd found (here r)
        | cons d s =>
          obtain ⟨next, first, rest⟩ := Spot.reads_append_iff.mp
            (show Spot.Reads _ ([d] ++ s) p from reads)
          cases Spot.next?_eq_some_iff.mpr first
          exact ⟨s, p, q, rest, matched⟩

/-- A pattern occurs in a text if it matches somewhere behind the beginning. -/
theorem occursIn_iff {pat : Pattern} {text : List Char} :
    pat.occursIn text ↔ ∃ s p q, (Spot.start text).Reads s p ∧ pat.Matches p q :=
  isSome_searchFrom_iff pat text [] 0

/-- A match at the beginning is the first one. -/
theorem search_of_matches_start {pat : Pattern} {text : List Char} {q : Spot}
    (h : pat.Matches (.start text) q) : ∃ r, pat.search text = some (.start text, r) := by
  obtain ⟨r, found⟩ := Option.isSome_iff_exists.mp (isSome_matchAt_iff.mpr ⟨q, h⟩)
  refine ⟨r, ?_⟩
  unfold Spot.start at found
  cases text with
  | nil =>
    rw [search, searchFrom, found]
    rfl
  | cons c rest =>
    rw [search, searchFrom, found]
    rfl

/-- The search stops where a match begins, and none begins before. -/
theorem exists_of_searchFrom (pat : Pattern) {after before : List Char} {n : Nat} {p r : Spot}
    (h : pat.searchFrom after before n = some (p, r)) :
    ∃ s, Spot.Reads ⟨before, after, n, []⟩ s p ∧ (∃ q, pat.Matches p q) ∧
      ∀ s' p' q', Spot.Reads ⟨before, after, n, []⟩ s' p' → pat.Matches p' q' →
        s.length ≤ s'.length := by
  induction after generalizing before n with
  | nil =>
    rw [searchFrom] at h
    obtain ⟨q, found, same⟩ := Option.map_eq_some_iff.mp h
    obtain ⟨rfl, -⟩ := Prod.mk.inj same
    have matched := isSome_matchAt_iff.mp (Option.isSome_of_eq_some found)
    exact ⟨[], .refl _, matched, fun s' _ _ _ _ => Nat.zero_le s'.length⟩
  | cons c rest ih =>
    rw [searchFrom] at h
    cases here : pat.matchAt ⟨before, c :: rest, n, []⟩ with
    | some q =>
      rw [here] at h
      obtain ⟨rfl, -⟩ := Prod.mk.inj (Option.some.inj h)
      have matched := isSome_matchAt_iff.mp (Option.isSome_of_eq_some here)
      exact ⟨[], .refl _, matched, fun s' _ _ _ _ => Nat.zero_le s'.length⟩
    | none =>
      rw [here] at h
      obtain ⟨s, reads, matched, first⟩ := ih h
      have step : Spot.Reads ⟨before, c :: rest, n, []⟩ [c] ⟨c :: before, rest, n + 1, []⟩ :=
        ⟨rfl, rfl, rfl, rfl⟩
      refine ⟨[c] ++ s, step.trans reads, matched, ?_⟩
      intro s' p' q' reads' matched'
      cases s' with
      | nil =>
        rw [reads'.eq_of_nil] at matched'
        have found := isSome_matchAt_iff.mpr ⟨q', matched'⟩
        rw [here] at found
        cases found
      | cons d s' =>
        obtain ⟨next, front, behind⟩ := Spot.reads_append_iff.mp
          (show Spot.Reads _ ([d] ++ s') p' from reads')
        cases Spot.next?_eq_some_iff.mpr front
        exact Nat.succ_le_succ (first s' p' q' behind matched')

/-- The first match of a text begins behind a text behind which a match begins, and behind none that
is shorter. -/
theorem exists_of_search {pat : Pattern} {text : List Char} {p r : Spot}
    (h : pat.search text = some (p, r)) :
    ∃ s, (Spot.start text).Reads s p ∧ (∃ q, pat.Matches p q) ∧
      ∀ s' p' q', (Spot.start text).Reads s' p' → pat.Matches p' q' → s.length ≤ s'.length :=
  exists_of_searchFrom pat h

/-! ### Regular patterns -/

/-- The pattern is made of sets and places by sequence, choice and repetition. -/
def isRegular : Pattern → Bool
  | .empty | .oneOf _ | .place _ => true
  | .seq a b | .alt a b => a.isRegular && b.isRegular
  | .rep body _ _ _ => body.isRegular
  | _ => false

section

variable {p q : Spot}

/-- A match passes over the text between its spots. -/
theorem Matches.reads {pat : Pattern} (regular : pat.isRegular = true) (h : pat.Matches p q) :
    ∃ s, p.Reads s q := by
  induction pat generalizing p q with
  | empty => exact ⟨[], h ▸ .refl p⟩
  | oneOf s =>
    obtain ⟨c, -, reads⟩ := h
    exact ⟨[c], reads⟩
  | place l => exact ⟨[], h.2 ▸ .refl p⟩
  | seq a b iha ihb =>
    obtain ⟨regular_a, regular_b⟩ := Bool.and_eq_true_iff.mp regular
    obtain ⟨r, ha, hb⟩ := h
    obtain ⟨s, hs⟩ := iha regular_a ha
    obtain ⟨t, ht⟩ := ihb regular_b hb
    exact ⟨s ++ t, hs.trans ht⟩
  | alt a b iha ihb =>
    obtain ⟨regular_a, regular_b⟩ := Bool.and_eq_true_iff.mp regular
    exact h.elim (iha regular_a) (ihb regular_b)
  | rep body least more greedy ih =>
    obtain ⟨r, first, rounds⟩ := h
    obtain ⟨m, -, others⟩ := rounds.exists_steps
    exact (first.append others).reads (ih regular)
  | _ => cases regular

theorem Matches.before_ne_nil {pat : Pattern} (regular : pat.isRegular = true)
    (h : pat.Matches p q) (there : p.before ≠ []) : q.before ≠ [] := by
  obtain ⟨s, reads⟩ := h.reads regular
  rw [reads.before]
  simp [there]

/-- A repetition is some matches in a row, as many as its bounds allow. -/
theorem matches_rep_iff {body : Pattern} (regular : body.isRegular = true) {least : Nat}
    {more : Option Nat} {greedy : Bool} :
    (rep body least more greedy).Matches p q ↔
      ∃ n, least ≤ n ∧ (∀ m, more = some m → n ≤ least + m) ∧ Steps body.Matches n p q := by
  have reads {p q : Spot} (h : body.Matches p q) : ∃ s, p.Reads s q := h.reads regular
  constructor
  · rintro ⟨r, first, rounds⟩
    obtain ⟨m, few, others⟩ := rounds.exists_steps
    refine ⟨least + m, Nat.le_add_right _ _, ?_, first.append others⟩
    rintro bound rfl
    exact Nat.add_le_add_left few _
  · rintro ⟨n, enough, few, steps⟩
    obtain ⟨m, rfl⟩ := Nat.exists_eq_add_of_le enough
    obtain ⟨r, first, others⟩ := steps.split
    have rounds := Rounds.of_steps reads others
    refine ⟨r, first, ?_⟩
    cases more with
    | none => exact rounds.shorten reads
    | some bound => exact rounds.weaken (Nat.le_of_add_le_add_left (few bound rfl))

end

/-! ### Matches in a longer text -/

/-- The pattern is regular and asks for no places. -/
def isPlain : Pattern → Bool
  | .empty | .oneOf _ => true
  | .seq a b | .alt a b => a.isPlain && b.isPlain
  | .rep body _ _ _ => body.isPlain
  | _ => false

theorem isRegular_of_isPlain {pat : Pattern} (plain : pat.isPlain = true) :
    pat.isRegular = true := by
  induction pat with
  | empty | oneOf => rfl
  | seq a b iha ihb | alt a b iha ihb =>
    obtain ⟨plain_a, plain_b⟩ := Bool.and_eq_true_iff.mp plain
    exact Bool.and_eq_true_iff.mpr ⟨iha plain_a, ihb plain_b⟩
  | rep body _ _ _ ih => exact ih plain
  | _ => cases plain

/-- A plain pattern matches whatever stands around the match. -/
theorem Matches.within {pat : Pattern} (plain : pat.isPlain = true) {p q : Spot}
    (h : pat.Matches p q) (front back : List Char) :
    pat.Matches (p.within front back) (q.within front back) := by
  induction pat generalizing p q with
  | empty => exact congrArg (Spot.within front back) h
  | oneOf s =>
    obtain ⟨c, found, reads⟩ := h
    exact ⟨c, found, reads.within front back⟩
  | seq a b iha ihb =>
    obtain ⟨plain_a, plain_b⟩ := Bool.and_eq_true_iff.mp plain
    obtain ⟨r, ha, hb⟩ := h
    exact ⟨r.within front back, iha plain_a ha, ihb plain_b hb⟩
  | alt a b iha ihb =>
    obtain ⟨plain_a, plain_b⟩ := Bool.and_eq_true_iff.mp plain
    exact h.imp (iha plain_a) (ihb plain_b)
  | rep body least more greedy ih =>
    have regular : body.isRegular = true := isRegular_of_isPlain plain
    obtain ⟨n, enough, few, steps⟩ := (matches_rep_iff regular).mp h
    exact (matches_rep_iff regular).mpr
      ⟨n, enough, few, steps.map (Spot.within front back) (ih plain)⟩
  | _ => cases plain

/-- A pattern that matches in a text as well as in a longer one occurs in the longer one. -/
theorem occursIn_of_within {pat : Pattern} {text : List Char} (front back : List Char)
    (h : ∀ p q, pat.Matches p q → pat.Matches (p.within front back) (q.within front back))
    (occurs : pat.occursIn text) : pat.occursIn (front ++ (text ++ back)) := by
  obtain ⟨s, p, q, reads, matched⟩ := occursIn_iff.mp occurs
  refine occursIn_iff.mpr ⟨front ++ s, _, _, ?_, h p q matched⟩
  have begins : (Spot.start (front ++ (text ++ back))).Reads front
      ((Spot.start text).within front back) :=
    ⟨rfl, by simp [Spot.start, Spot.within], Nat.add_comm _ _, rfl⟩
  exact begins.trans (reads.within front back)

/-! ### Patterns that are put together -/

section

variable {p q : Spot}

theorem matches_char {c : Char} : (char c).Matches p q ↔ p.Reads [c] q := by
  constructor
  · rintro ⟨d, found, reads⟩
    have same : d = c := by simpa [CharSet.has, CharItem.has] using found
    exact same ▸ reads
  · exact fun reads => ⟨c, by simp [CharSet.has, CharItem.has], reads⟩

theorem matches_oneOf {set : CharSet} :
    (Pattern.oneOf set).Matches p q ↔ ∃ c, set.has c ∧ p.Reads [c] q := Iff.rfl

theorem matches_place {l : Place} : (Pattern.place l).Matches p q ↔ l.holds p ∧ q = p := Iff.rfl

theorem matches_choice_singleton {a : Pattern} : (choice [a]).Matches p q ↔ a.Matches p q := Iff.rfl

theorem matches_choice_cons {a b : Pattern} {rest : List Pattern} :
    (choice (a :: b :: rest)).Matches p q ↔
      a.Matches p q ∨ (choice (b :: rest)).Matches p q := Iff.rfl

theorem matches_sequence_nil : (sequence []).Matches p q ↔ q = p := Iff.rfl

theorem matches_sequence_cons {a : Pattern} {rest : List Pattern} :
    (sequence (a :: rest)).Matches p q ↔ ∃ r, a.Matches p r ∧ (sequence rest).Matches r q := by
  cases rest with
  | nil =>
    constructor
    · exact fun h => ⟨q, h, rfl⟩
    · rintro ⟨r, h, rfl⟩
      exact h
  | cons b rest => exact Iff.rfl

theorem matches_text {s : String} : (text s).Matches p q ↔ p.Reads s.toList q := by
  rw [text]
  generalize s.toList = s
  induction s generalizing p with
  | nil =>
    constructor
    · rintro rfl
      exact .refl _
    · exact Spot.Reads.eq_of_nil
  | cons c s ih =>
    rw [List.map_cons, matches_sequence_cons]
    simp only [matches_char, ih]
    exact Spot.reads_append_iff.symm

theorem steps_oneOf_iff {set : CharSet} {n : Nat} :
    Steps (Pattern.oneOf set).Matches n p q ↔
      ∃ s, s.length = n ∧ (∀ c ∈ s, set.has c) ∧ p.Reads s q := by
  induction n generalizing p with
  | zero =>
    constructor
    · rintro ⟨⟩
      exact ⟨[], rfl, nofun, .refl _⟩
    · rintro ⟨s, none, -, reads⟩
      obtain rfl := List.eq_nil_of_length_eq_zero none
      exact reads.eq_of_nil ▸ .none _
  | succ n ih =>
    constructor
    · rintro (_ | @⟨_, _, r, _, ⟨c, hc, first⟩, rest⟩)
      obtain ⟨s, length, hs, reads⟩ := ih.mp rest
      exact ⟨c :: s, by simp [length], List.forall_mem_cons.mpr ⟨hc, hs⟩, first.trans reads⟩
    · rintro ⟨s, length, hs, reads⟩
      obtain ⟨c, s, rfl⟩ := List.exists_cons_of_length_eq_add_one length
      obtain ⟨hc, hs⟩ := List.forall_mem_cons.mp hs
      obtain ⟨r, first, rest⟩ := Spot.reads_append_iff.mp
        (show p.Reads ([c] ++ s) q from reads)
      exact .more ⟨c, hc, first⟩ (ih.mpr ⟨s, Nat.succ.inj length, hs, rest⟩)

theorem matches_many {set : CharSet} :
    (many (.oneOf set)).Matches p q ↔ ∃ s, (∀ c ∈ s, set.has c) ∧ p.Reads s q := by
  rw [many, matches_rep_iff rfl]
  constructor
  · rintro ⟨n, -, -, steps⟩
    obtain ⟨s, -, hs, reads⟩ := steps_oneOf_iff.mp steps
    exact ⟨s, hs, reads⟩
  · rintro ⟨s, hs, reads⟩
    exact ⟨s.length, Nat.zero_le _, nofun, steps_oneOf_iff.mpr ⟨s, rfl, hs, reads⟩⟩

theorem matches_atLeastOnce {set : CharSet} :
    (atLeastOnce (.oneOf set)).Matches p q ↔
      ∃ s, s ≠ [] ∧ (∀ c ∈ s, set.has c) ∧ p.Reads s q := by
  rw [atLeastOnce, matches_rep_iff rfl]
  constructor
  · rintro ⟨n, some_steps, -, steps⟩
    obtain ⟨s, rfl, hs, reads⟩ := steps_oneOf_iff.mp steps
    exact ⟨s, List.length_pos_iff.mp some_steps, hs, reads⟩
  · rintro ⟨s, there, hs, reads⟩
    exact ⟨s.length, List.length_pos_iff.mpr there, nofun,
      steps_oneOf_iff.mpr ⟨s, rfl, hs, reads⟩⟩

theorem matches_blanks :
    (atLeastOnce blank).Matches p q ↔
      ∃ s, s ≠ [] ∧ (∀ c ∈ s, Text.isBlank c) ∧ p.Reads s q := by
  have has {c : Char} : ({ items := [.ofClass .blank] } : CharSet).has c = Text.isBlank c := by
    simp [CharSet.has, CharItem.has, CharClass.has]
  simp only [blank, ofClass, matches_atLeastOnce, has]

theorem matches_solids :
    (atLeastOnce (.notOfClass .blank)).Matches p q ↔
      ∃ s, s ≠ [] ∧ (∀ c ∈ s, Text.isBlank c = false) ∧ p.Reads s q := by
  have has {c : Char} : ({ items := [.notOfClass .blank] } : CharSet).has c ↔
      Text.isBlank c = false := by
    simp [CharSet.has, CharItem.has, CharClass.has]
  simp only [notOfClass, matches_atLeastOnce, has]

variable {body : Pattern} {r : Spot}

theorem matches_few_nil : (few body).Matches p p := ⟨p, .none p, .none _ p⟩

theorem matches_few_cons (regular : body.isRegular = true) (first : body.Matches p q)
    (others : (few body).Matches q r) : (few body).Matches p r := by
  rw [few, matches_rep_iff regular] at others ⊢
  obtain ⟨n, -, -, steps⟩ := others
  exact ⟨n + 1, Nat.zero_le _, nofun, .more first steps⟩

end

end Pattern

end FlowLint
