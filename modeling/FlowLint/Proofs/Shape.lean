import FlowLint.Json.Shape

/-! What is accepted when JSON values are read, whatever is said of the others. A reading of several
members is accepted if each of them is (`Checked.seq_eq_ok_iff`), a member of an object is the one
that was set last (`lookup_foldl_insert`), and what was written is read again. -/

namespace FlowLint.Json

variable {α β : Type}

namespace Checked

@[simp] theorem ok_seq (f : α → β) (x : Checked α) : Checked.ok f <*> x = f <$> x := by
  cases x <;> rfl

@[simp] theorem map_ok (f : α → β) (a : α) : f <$> Checked.ok a = .ok (f a) := rfl

theorem map_eq_ok_iff {f : α → β} {x : Checked α} {b : β} :
    f <$> x = .ok b ↔ ∃ a, x = .ok a ∧ f a = b := by
  cases x with
  | ok a => simp
  | issues i rest => exact ⟨nofun, nofun⟩
  | raised e => exact ⟨nofun, nofun⟩

theorem seq_eq_ok_iff {f : Checked (α → β)} {x : Checked α} {b : β} :
    f <*> x = .ok b ↔ ∃ g a, f = .ok g ∧ x = .ok a ∧ g a = b := by
  cases f with
  | ok g => simp [map_eq_ok_iff]
  | issues i rest => cases x <;> exact ⟨nofun, nofun⟩
  | raised e => exact ⟨nofun, nofun⟩

theorem map_of_eq {f : α → β} {x : Checked α} {a : α} (hx : x = .ok a) : f <$> x = .ok (f a) :=
  hx ▸ rfl

theorem seq_of_eq {f : Checked (α → β)} {x : Checked α} {g : α → β} {a : α} (hf : f = .ok g)
    (hx : x = .ok a) : f <*> x = .ok (g a) := hf ▸ hx ▸ rfl

theorem under_eq_ok_iff {s : Segment} {x : Checked α} {a : α} : x.under s = .ok a ↔ x = .ok a := by
  cases x with
  | ok b => rfl
  | issues i rest => exact ⟨nofun, nofun⟩
  | raised e => exact ⟨nofun, nofun⟩

theorem toExcept_eq_ok_iff {ε : Type} {x : Checked α} {a : α} {refuse : List Issue → ε}
    {stop : Raised → ε} : x.toExcept refuse stop = .ok a ↔ x = .ok a := by
  cases x with
  | ok b => simp [toExcept]
  | issues i rest => exact ⟨nofun, nofun⟩
  | raised e => exact ⟨nofun, nofun⟩

end Checked

/-! ### Members -/

theorem lookup_cons (key name : String) (v : Json) (rest : List (String × Json)) :
    ((name, v) :: rest).lookup key = if key = name then some v else rest.lookup key := by
  by_cases same : key = name
  · simp [same]
  · rw [List.lookup_cons, beq_false_of_ne same, if_neg same]

theorem lookup_insert (name key : String) (v : Json) (members : List (String × Json)) :
    (insert name v members).lookup key = if key = name then some v else members.lookup key := by
  induction members with
  | nil => rw [insert, lookup_cons]
  | cons m rest ih =>
    obtain ⟨n, w⟩ := m
    rw [insert]
    split
    next here =>
      obtain rfl := eq_of_beq here
      simp only [lookup_cons]
      split <;> rfl
    next other =>
      have other : n ≠ name := by simpa using other
      simp only [lookup_cons, ih]
      by_cases same : key = n
      · simp [same, other]
      · simp [same]

/-- Of several members with one name the one that is set last counts. -/
theorem lookup_foldl_insert (changes members : List (String × Json)) (key : String) :
    (changes.foldl (fun members (name, v) => insert name v members) members).lookup key =
      (changes.reverse.lookup key).or (members.lookup key) := by
  induction changes generalizing members with
  | nil => rfl
  | cons c rest ih =>
    obtain ⟨name, v⟩ := c
    rw [List.foldl_cons, ih, lookup_insert, List.reverse_cons, List.lookup_append, lookup_cons]
    cases rest.reverse.lookup key with
    | some w => rfl
    | none => split <;> rfl

theorem lookup_reverse {members : List (String × Json)} (distinct : (members.map (·.1)).Nodup)
    (key : String) : members.reverse.lookup key = members.lookup key := by
  induction members with
  | nil => rfl
  | cons m rest ih =>
    obtain ⟨name, v⟩ := m
    obtain ⟨new, distinct⟩ := List.nodup_cons.mp distinct
    rw [List.reverse_cons, List.lookup_append, ih distinct, lookup_cons, lookup_cons]
    split
    next same =>
      subst same
      have absent : rest.lookup key = none := by
        refine List.lookup_eq_none_iff.mpr fun p hp => bne_iff_ne.mpr fun same => ?_
        exact new (List.mem_map.mpr ⟨p, hp, same.symm⟩)
      rw [absent]
      rfl
    next => cases rest.lookup key <;> rfl

/-- A member that is there and not null. -/
def given? (name : String) (members : List (String × Json)) : Option Json :=
  match members.lookup name with
  | some .null => none
  | found => found

theorem given?_eq_some_iff {name : String} {members : List (String × Json)} {v : Json} :
    given? name members = some v ↔ members.lookup name = some v ∧ v ≠ .null := by
  unfold given?
  split
  next null => grind
  next found other => grind

namespace Shape

theorem member_eq_ok_iff {name : String} {read : Json → Checked α} {fallback a : α}
    {members : List (String × Json)} :
    member name read fallback members = .ok a ↔
      (members.lookup name).elim (fallback = a) (read · = .ok a) := by
  unfold member
  cases members.lookup name with
  | none => simp
  | some v => exact Checked.under_eq_ok_iff

/-- The items of a list are read again as they were written. -/
theorem itemsFrom_map {read : Json → Checked α} {write : α → Json}
    (h : ∀ a, read (write a) = .ok a) (items : List α) (first : Nat) :
    itemsFrom read first (items.map write) = .ok items := by
  induction items generalizing first with
  | nil => rfl
  | cons a rest ih =>
    have head := Checked.under_eq_ok_iff (s := .item first).mpr (h a)
    rw [List.map_cons, itemsFrom, head, ih]
    rfl

/-- What is said of a value that is no list makes no difference to the lists that are read. -/
theorem list_eq_ok_congr {read : Json → Checked α} {c c' : Cause} {v : Json} {l : List α}
    (h : list read c v = .ok l) : list read c' v = .ok l := by
  cases v with
  | array items => exact h
  | _ => cases h

theorem text_string (s : String) : text (.string s) = .ok s := rfl

theorem text_eq_ok_iff {v : Json} {s : String} : text v = .ok s ↔ v = .string s := by
  cases v with
  | string t => simp [text]
  | _ => exact ⟨nofun, nofun⟩

/-- A value that is not null is read as it would be if null were not admitted. -/
theorem optional_eq_ok_iff {read : Json → Checked α} {v : Json} (h : v ≠ .null) {a : Option α} :
    optional read v = .ok a ↔ ∃ b, read v = .ok b ∧ some b = a := by
  rw [← Checked.map_eq_ok_iff]
  cases v with
  | null => exact absurd rfl h
  | _ => rfl

end Shape

end FlowLint.Json
