import FlowLint.Proofs.Sorting
import FlowLint.Rule.Style
import Mathlib.Data.List.Forall2
import Mathlib.Data.List.Nodup
import Mathlib.Data.List.TakeWhile

/-! The order of keys. The rule keeps in mind the last key so far in the canonical order only; it
finds all the same each key that stands behind one which should follow it, and says of it what is to
be said (`orderDrafts_exact`). -/

namespace FlowLint.Style

open FlowLint.Tree (Mapping Pointer.child)

variable {canonical : List String}

/-- The recognised keys that stand before `key`. -/
def keysBefore (canonical keys : List String) (key : String) : List String :=
  (keys.takeWhile (· != key)).filter canonical.contains

/-- A recognised key that stands before the key should follow it. -/
def IsMisplaced (canonical keys : List String) (key : String) : Prop :=
  key ∈ canonical ∧
    ∃ other ∈ keysBefore canonical keys key, canonical.idxOf key < canonical.idxOf other

instance (canonical keys : List String) : DecidablePred (IsMisplaced canonical keys) :=
  fun _ => inferInstanceAs (Decidable (_ ∧ _))

/-- The key is the last of some keys in the canonical order. -/
structure IsLast (canonical keys : List String) (key : String) : Prop where
  mem : key ∈ keys
  last : ∀ other ∈ keys, canonical.idxOf other ≤ canonical.idxOf key

/-- What is to be said of a misplaced key: where it is, the last of the keys before it in the
canonical order, and the place that it should have among the recognised keys. -/
structure ReportsKey (canonical : List String) (m : Mapping) (path part key : String) (d : Draft) :
    Prop where
  location : d.location = Pointer.child path key
  title : ∃ highest, IsLast canonical (keysBefore canonical m.keys key) highest ∧
    d.title = code key ++ " should come before " ++ code highest ++ " in the " ++ part
  change : ∃ sorted : List String, sorted.Perm (m.keys.filter canonical.contains) ∧
    sorted.Sublist canonical ∧
    d.change = "Move " ++ code key ++ s!" to position {(m.keys.filter fun other =>
      other ∈ canonical ∧ canonical.idxOf other < canonical.idxOf key).length + 1}: " ++
      Text.join ", " sorted ++ "."

/-! ### Positions -/

/-- In a list that goes by the values of `f`, an element stands behind those of smaller value. -/
theorem idxOf_eq_countP {f : String → Nat} {l : List String}
    (ordered : l.Pairwise fun a b => f a < f b) {a : String} (h : a ∈ l) :
    l.idxOf a = l.countP (f · < f a) := by
  induction l with
  | nil => cases h
  | cons b rest ih =>
    obtain ⟨first, ordered⟩ := List.pairwise_cons.mp ordered
    rcases List.mem_cons.mp h with rfl | h
    · have none_before : rest.countP (f · < f a) = 0 := by
        refine List.countP_eq_zero.mpr fun c hc => ?_
        have := first c hc
        simp only [decide_eq_true_eq]
        omega
      simp [none_before]
    · have other : b ≠ a := by
        rintro rfl
        exact absurd (first b h) (Nat.lt_irrefl _)
      rw [List.idxOf_cons_ne _ other, ih ordered h, List.countP_cons_of_pos]
      simpa using first a h

theorem pairwise_idxOf {l : List String} (distinct : l.Nodup) :
    l.Pairwise fun a b => l.idxOf a < l.idxOf b := by
  refine List.pairwise_iff_getElem.mpr fun i j hi hj lt => ?_
  rwa [distinct.idxOf_getElem, distinct.idxOf_getElem]

/-- Before a key that satisfies `p`, it makes no difference when the others are dropped. -/
theorem takeWhile_filter_ne {p : String → Bool} {key : String} (h : p key = true)
    (l : List String) :
    (l.filter p).takeWhile (· != key) = (l.takeWhile (· != key)).filter p := by
  induction l with
  | nil => rfl
  | cons a rest ih =>
    by_cases same : a = key
    · subst same
      simp [h]
    · cases kept : p a <;> simp [kept, same, ih]

section Expected

variable {m : Mapping}

theorem mem_canonical {key : String} (h : key ∈ recognised canonical m) : key ∈ canonical := by
  simpa using (List.mem_filter.mp h).2

/-- Recognised keys in the canonical order are all that there are. -/
theorem expected_perm (canonical : List String) (m : Mapping) :
    (expected canonical m).Perm (recognised canonical m) := sortOrdered_perm _ _

theorem pairwise_expected (keys : m.keys.Nodup) :
    (expected canonical m).Pairwise fun a b => canonical.idxOf a < canonical.idxOf b := by
  have ordered := inOrder_sortOrdered (Ranks.of_lt (rank canonical)) (recognised canonical m)
  have distinct : (expected canonical m).Nodup :=
    (expected_perm canonical m).nodup_iff.mpr (keys.filter _)
  refine (List.Pairwise.and ordered distinct).imp_of_mem fun {a b} ha hb ⟨le, other⟩ => ?_
  -- two different keys have different places in the canonical order
  have known : a ∈ canonical := mem_canonical (mem_sortOrdered.mp ha)
  have different : canonical.idxOf a ≠ canonical.idxOf b :=
    fun same => other ((List.idxOf_inj known).mp same)
  have not_behind : ¬ canonical.idxOf b < canonical.idxOf a := of_decide_eq_false le
  omega

/-- A key stands behind the recognised keys that come before it in the canonical order. -/
theorem idxOf_expected (keys : m.keys.Nodup) {key : String} (h : key ∈ recognised canonical m) :
    (expected canonical m).idxOf key = (m.keys.filter fun other =>
      other ∈ canonical ∧ canonical.idxOf other < canonical.idxOf key).length := by
  have perm := expected_perm canonical m
  rw [idxOf_eq_countP (pairwise_expected keys) (perm.mem_iff.mpr h), perm.countP_eq, recognised,
    List.countP_filter, List.countP_eq_length_filter]
  congr 1
  refine List.filter_congr fun other _ => ?_
  simp [and_comm]

variable (distinct : canonical.Nodup)

include distinct in
/-- Recognised keys stand in the canonical order if and only if each stands before those that come
behind it there. -/
theorem sublist_iff_pairwise {keys : List String} (known : ∀ key ∈ keys, key ∈ canonical) :
    keys.Sublist canonical ↔
      keys.Pairwise fun a b => canonical.idxOf a < canonical.idxOf b := by
  refine ⟨fun h => (pairwise_idxOf distinct).sublist h, fun ordered => ?_⟩
  have different : keys.Nodup := ordered.imp fun lt same => absurd lt (by simp [same])
  have perm : (canonical.filter keys.contains).Perm keys := by
    refine (List.perm_ext_iff_of_nodup (distinct.filter _) different).mpr fun key => ?_
    simp only [List.mem_filter, List.contains_iff_mem, and_iff_right_iff_imp]
    exact known key
  have same : canonical.filter keys.contains = keys := by
    refine perm.eq_of_pairwise (fun a b _ _ ab ba => ?_)
      ((pairwise_idxOf distinct).sublist List.filter_sublist) ordered
    omega
  rw [← same]
  exact List.filter_sublist

include distinct in
theorem expected_sublist (keys : m.keys.Nodup) : (expected canonical m).Sublist canonical :=
  (sublist_iff_pairwise distinct fun _ h => mem_canonical (mem_sortOrdered.mp h)).mpr
    (pairwise_expected keys)

end Expected

/-! ### The scan -/

/-- Among all keys, the same recognised ones stand before a key as among these alone. -/
theorem keysBefore_filter {key : String} (h : key ∈ canonical) (keys : List String) :
    keysBefore canonical (keys.filter canonical.contains) key = keysBefore canonical keys key := by
  rw [keysBefore, keysBefore, takeWhile_filter_ne (by simpa using h), List.filter_filter]
  simp only [Bool.and_self]

theorem filter_isMisplaced (canonical keys : List String) :
    (keys.filter canonical.contains).filter
        (IsMisplaced canonical (keys.filter canonical.contains)) =
      keys.filter (IsMisplaced canonical keys) := by
  rw [List.filter_filter]
  refine List.filter_congr fun key _ => ?_
  by_cases known : key ∈ canonical
  · simp [IsMisplaced, keysBefore_filter, known]
  · simp [IsMisplaced, known]

/-- What the scan keeps in mind of the keys that it has seen: the last in the canonical order. -/
def IsTop (canonical seen : List String) : Option String → Prop
  | none => seen = []
  | some highest => IsLast canonical seen highest

theorem IsLast.keep {seen : List String} {highest key : String}
    (h : IsLast canonical seen highest)
    (before : canonical.idxOf key ≤ canonical.idxOf highest) :
    IsLast canonical (seen ++ [key]) highest :=
  ⟨List.mem_append_left _ h.mem,
    List.forall_mem_append.mpr ⟨h.last, List.forall_mem_singleton.mpr before⟩⟩

theorem IsLast.replace {seen : List String} {highest key : String}
    (h : IsLast canonical seen highest)
    (behind : canonical.idxOf highest ≤ canonical.idxOf key) :
    IsLast canonical (seen ++ [key]) key :=
  ⟨by simp, List.forall_mem_append.mpr
    ⟨fun other hother => Nat.le_trans (h.last other hother) behind,
    List.forall_mem_singleton.mpr (Nat.le_refl _)⟩⟩

/-- Of recognised keys, the scan finds those that are misplaced, each with the last of the keys
before it. -/
theorem misplacedFrom_exact {seen keys : List String} {highest : Option String}
    (known : ∀ key ∈ seen ++ keys, key ∈ canonical) (distinct : (seen ++ keys).Nodup)
    (top : IsTop canonical seen highest) :
    (keys.filter (IsMisplaced canonical (seen ++ keys))).Forall₂
      (fun key found => found.1 = key ∧
        IsLast canonical (keysBefore canonical (seen ++ keys) key) found.2)
      (misplacedFrom canonical highest keys) := by
  induction keys generalizing seen highest with
  | nil => simp [misplacedFrom]
  | cons key rest ih =>
    have before : keysBefore canonical (seen ++ key :: rest) key = seen := by
      have absent : ∀ other ∈ seen, (other != key) = true := by
        intro other hother
        simpa using (List.nodup_append.mp distinct).2.2 other hother key List.mem_cons_self
      have all_known : ∀ other ∈ seen, canonical.contains other = true := by
        intro other hother
        simpa using known other (List.mem_append_left _ hother)
      rw [keysBefore, List.takeWhile_append_of_pos absent, List.takeWhile_cons_of_neg (by simp),
        List.append_nil, List.filter_eq_self.mpr all_known]
    have misplaced : IsMisplaced canonical (seen ++ key :: rest) key ↔
        ∃ other ∈ seen, canonical.idxOf key < canonical.idxOf other := by
      rw [IsMisplaced, before]
      exact and_iff_right (known key (by simp))
    have step (highest : Option String) := @ih (seen ++ [key]) highest
    simp only [List.append_assoc, List.singleton_append] at step
    cases highest with
    | none =>
      obtain rfl : seen = [] := top
      have well_placed : ¬IsMisplaced canonical ([] ++ key :: rest) key := by
        rw [misplaced]
        simp
      have first : IsLast canonical [key] key := ⟨by simp, by simp⟩
      rw [List.filter_cons_of_neg (by simpa using well_placed), misplacedFrom]
      exact step (some key) known distinct first
    | some highest =>
      have top : IsLast canonical seen highest := top
      rw [misplacedFrom, rank, rank]
      by_cases lt : canonical.idxOf key < canonical.idxOf highest
      · have behind := misplaced.mpr ⟨highest, top.mem, lt⟩
        rw [if_pos lt, List.filter_cons_of_pos (by simpa using behind)]
        exact .cons ⟨rfl, before.symm ▸ top⟩
          (step (some highest) known distinct (top.keep (Nat.le_of_lt lt)))
      · have le : canonical.idxOf highest ≤ canonical.idxOf key := Nat.not_lt.mp lt
        have well_placed : ¬IsMisplaced canonical (seen ++ key :: rest) key := by
          rw [misplaced]
          rintro ⟨other, hother, behind⟩
          have := top.last other hother
          omega
        rw [if_neg lt, List.filter_cons_of_neg (by simpa using well_placed)]
        exact step (some key) known distinct (top.replace le)

theorem pairwise_iff_takeWhile {R : String → String → Prop} {keys : List String}
    (distinct : keys.Nodup) :
    keys.Pairwise R ↔ ∀ key ∈ keys, ∀ other ∈ keys.takeWhile (· != key), R other key := by
  induction keys with
  | nil => simp
  | cons a rest ih =>
    obtain ⟨absent, distinct⟩ := List.nodup_cons.mp distinct
    have behind : ∀ key ∈ rest, (a :: rest).takeWhile (· != key) =
        a :: rest.takeWhile (· != key) := by
      intro key hkey
      have other : a ≠ key := fun same => absent (same ▸ hkey)
      rw [List.takeWhile_cons_of_pos (by simpa using other)]
    rw [List.pairwise_cons, ih distinct, List.forall_mem_cons]
    constructor
    · rintro ⟨first, later⟩
      refine ⟨by simp, fun key hkey => ?_⟩
      rw [behind key hkey]
      exact List.forall_mem_cons.mpr ⟨first key hkey, later key hkey⟩
    · rintro ⟨-, later⟩
      have both : ∀ key ∈ rest, R a key ∧ ∀ other ∈ rest.takeWhile (· != key), R other key := by
        intro key hkey
        have := later key hkey
        rw [behind key hkey] at this
        exact List.forall_mem_cons.mp this
      exact ⟨fun key hkey => (both key hkey).1, fun key hkey => (both key hkey).2⟩

/-- No recognised key is misplaced if and only if they stand in the canonical order. -/
theorem filter_isMisplaced_eq_nil_iff (canonicalDistinct : canonical.Nodup) {keys : List String}
    (known : ∀ key ∈ keys, key ∈ canonical) (distinct : keys.Nodup) :
    keys.filter (IsMisplaced canonical keys) = [] ↔ keys.Sublist canonical := by
  rw [sublist_iff_pairwise canonicalDistinct known, pairwise_iff_takeWhile distinct,
    List.filter_eq_nil_iff]
  refine forall₂_congr fun key hkey => ?_
  have before : keysBefore canonical keys key = keys.takeWhile (· != key) := by
    refine List.filter_eq_self.mpr fun other hother => ?_
    simpa using known other (List.takeWhile_subset _ hother)
  rw [decide_eq_true_eq, IsMisplaced, and_iff_right (known key hkey), before]
  simp only [not_exists, not_and, Nat.not_lt]
  refine forall₂_congr fun other hother => ?_
  -- two different keys have different places in the canonical order
  have different : canonical.idxOf other ≠ canonical.idxOf key := by
    intro same
    have := (List.idxOf_inj (known other (List.takeWhile_subset _ hother))).mp same
    simpa [this] using List.mem_takeWhile_imp hother
  omega

/-! ### The rule -/

theorem canonical_nodup (hc : canonical ∈ [rootKeys, jobKeys, stepKeys]) : canonical.Nodup := by
  simp only [List.mem_cons, List.not_mem_nil, or_false] at hc
  rcases hc with rfl | rfl | rfl <;> decide

/-- The scan of the recognised keys of a mapping. -/
theorem misplacedFrom_recognised {m : Mapping} (distinct : (recognised canonical m).Nodup) :
    ((recognised canonical m).filter (IsMisplaced canonical (recognised canonical m))).Forall₂
      (fun key found => found.1 = key ∧
        IsLast canonical (keysBefore canonical (recognised canonical m) key) found.2)
      (misplacedFrom canonical none (recognised canonical m)) := by
  have top : IsTop canonical [] none := rfl
  have known : ∀ key ∈ [] ++ recognised canonical m, key ∈ canonical := fun _ h => mem_canonical h
  exact misplacedFrom_exact known distinct top

/-- Each misplaced key is reported once, in the order of the mapping. -/
theorem orderDrafts_reports (canonicalDistinct : canonical.Nodup) {m : Mapping}
    (distinct : m.keys.Nodup) (path part : String) :
    (m.keys.filter (IsMisplaced canonical m.keys)).Forall₂ (ReportsKey canonical m path part)
      (orderDrafts canonical m path part) := by
  have scan := misplacedFrom_recognised (distinct.filter canonical.contains)
  rw [← filter_isMisplaced, orderDrafts, List.forall₂_map_right_iff]
  have among : ∀ key ∈ (recognised canonical m).filter
      (IsMisplaced canonical (recognised canonical m)), key ∈ recognised canonical m :=
    fun key hkey => List.mem_of_mem_filter hkey
  refine ((List.forall₂_and_left _ _).mpr ⟨among, scan⟩).imp ?_
  rintro _ ⟨key, highest⟩ ⟨hkey, rfl, last⟩
  rw [recognised, keysBefore_filter (mem_canonical hkey)] at last
  exact {
    location := rfl
    title := ⟨highest, last, rfl⟩
    change := ⟨expected canonical m, expected_perm canonical m,
      expected_sublist canonicalDistinct distinct, by rw [← idxOf_expected distinct hkey]⟩ }

theorem orderDrafts_eq_nil_iff (canonicalDistinct : canonical.Nodup) {m : Mapping}
    (distinct : (recognised canonical m).Nodup) (path part : String) :
    orderDrafts canonical m path part = [] ↔ (recognised canonical m).Sublist canonical := by
  rw [orderDrafts, List.map_eq_nil_iff, ← List.length_eq_zero_iff,
    ← (misplacedFrom_recognised distinct).length_eq, List.length_eq_zero_iff]
  exact filter_isMisplaced_eq_nil_iff canonicalDistinct (fun _ h => mem_canonical h) distinct

/-- Which keys are there besides the recognised ones makes no difference. -/
theorem orderDrafts_congr {m m' : Mapping} (same : recognised canonical m' = recognised canonical m)
    (path part : String) :
    orderDrafts canonical m' path part = orderDrafts canonical m path part := by
  rw [orderDrafts, orderDrafts, expected, expected, same]

/-- What a mapping is told about the order of its keys. There is one finding for each recognised key
that stands behind one which should follow it, in the order of the mapping; keys that are not
recognised make no difference; and there is none if and only if the recognised keys stand in the
canonical order, as they do once they are arranged as the findings say. -/
theorem orderDrafts_exact (hc : canonical ∈ [rootKeys, jobKeys, stepKeys]) {m : Mapping}
    (distinct : m.keys.Nodup) (path part : String) :
    (m.keys.filter (IsMisplaced canonical m.keys)).Forall₂ (ReportsKey canonical m path part)
      (orderDrafts canonical m path part) ∧
    (∀ m', recognised canonical m' = recognised canonical m →
      orderDrafts canonical m' path part = orderDrafts canonical m path part) ∧
    (orderDrafts canonical m path part = [] ↔ (recognised canonical m).Sublist canonical) ∧
    (expected canonical m).Perm (recognised canonical m) ∧
    ∀ m', recognised canonical m' = expected canonical m →
      orderDrafts canonical m' path part = [] := by
  have canonicalDistinct := canonical_nodup hc
  refine ⟨orderDrafts_reports canonicalDistinct distinct path part,
    fun m' same => orderDrafts_congr same path part,
    orderDrafts_eq_nil_iff canonicalDistinct (distinct.filter _) path part,
    expected_perm canonical m, fun m' arranged => ?_⟩
  have sorted : (recognised canonical m').Sublist canonical :=
    arranged ▸ expected_sublist canonicalDistinct distinct
  exact (orderDrafts_eq_nil_iff canonicalDistinct (canonicalDistinct.sublist sorted) path
    part).mpr sorted

/-- A step with its name behind the action, and its environment behind the script. -/
def mixedStep : Mapping where
  origin := {}
  entries := ["uses", "note", "name", "run", "env"].map fun key =>
    ({ value := key }, .scalar { value := "x" })

theorem orderDrafts_exact_mixedStep :
    mixedStep.keys.Nodup ∧
    mixedStep.keys.filter (IsMisplaced stepKeys mixedStep.keys) = ["name", "env"] ∧
    ["name", "env"].Forall₂ (ReportsKey stepKeys mixedStep "/jobs/a/steps/0" "step 1 of 'a'")
      (orderDrafts stepKeys mixedStep "/jobs/a/steps/0" "step 1 of 'a'") ∧
    (orderDrafts stepKeys mixedStep "/jobs/a/steps/0" "step 1 of 'a'").map (fun d =>
        (d.title, d.change)) =
      [("`name` should come before `uses` in the step 1 of 'a'",
          "Move `name` to position 1: name, uses, env, run."),
        ("`env` should come before `run` in the step 1 of 'a'",
          "Move `env` to position 3: name, uses, env, run.")] := by
  have distinct : mixedStep.keys.Nodup := by decide
  have misplaced :
      mixedStep.keys.filter (IsMisplaced stepKeys mixedStep.keys) = ["name", "env"] := by
    decide +kernel
  have listed : stepKeys ∈ [rootKeys, jobKeys, stepKeys] := by decide
  have reports := (orderDrafts_exact listed distinct "/jobs/a/steps/0" "step 1 of 'a'").1
  rw [misplaced] at reports
  exact ⟨distinct, misplaced, reports, by decide +kernel⟩

end FlowLint.Style
