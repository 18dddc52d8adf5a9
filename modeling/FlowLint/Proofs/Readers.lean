import Mathlib

/-! What is said of readers. A reader passes on a state and gives a value, or it fails. `Meets P x Q
E` is the one form of such statements: begun where `P` holds, the reader `x` ends as `Q` says of the
value and the state, or it fails as `E` says. -/

set_option mvcgen.warning false

namespace FlowLint.Yaml

open Std.Do

variable {σ ε α β ι : Type} {x : StateT σ (Except ε) α} {f : α → StateT σ (Except ε) β}
  {P P' : σ → Prop} {Q Q' : α → σ → Prop} {R : β → σ → Prop} {E : ε → Prop}

abbrev Meets (P : σ → Prop) (x : StateT σ (Except ε) α) (Q : α → σ → Prop) (E : ε → Prop) : Prop :=
  ⦃fun s => ⌜P s⌝⦄ x ⦃post⟨fun a s => ⌜Q a s⌝, fun e => ⌜E e⌝⟩⦄

/-- A statement about a reader is one about its runs. -/
theorem meets_iff : Meets P x Q E ↔ ∀ s, P s → match x.run s with
    | .ok (a, s') => Q a s'
    | .error e => E e := by
  refine forall_congr' fun s => imp_congr_right fun _ => ?_
  change (wp⟦x.run s⟧ _).down ↔ _
  cases x.run s <;> exact Iff.rfl

namespace Meets

theorem ok (h : Meets P x Q E) {s s' : σ} {a : α} (hs : P s) (read : x.run s = .ok (a, s')) :
    Q a s' := by
  have run := meets_iff.mp h s hs
  rwa [read] at run

theorem error (h : Meets P x Q E) {s : σ} {e : ε} (hs : P s) (read : x.run s = .error e) : E e := by
  have run := meets_iff.mp h s hs
  rwa [read] at run

theorem bind (h : Meets P x Q E) (rest : ∀ a, Meets (Q a) (f a) R E) : Meets P (x >>= f) R E :=
  Triple.bind x f h rest

/-- What is known of a value, and not of the state, is known from then on. -/
theorem bind_fact {F : α → Prop} (h : Meets P x (fun a s => Q a s ∧ F a) E)
    (rest : ∀ a, F a → Meets (Q a) (f a) R E) : Meets P (x >>= f) R E :=
  h.bind fun a => meets_iff.mpr fun s hs => meets_iff.mp (rest a hs.2) s hs.1

/-- More may be known before a reader than it needs, and less be asked for behind it. -/
theorem weaken (h : Meets P' x Q' E) (before : ∀ s, P s → P' s) (behind : ∀ a s, Q' a s → Q a s) :
    Meets P x Q E := by
  refine meets_iff.mpr fun s hs => ?_
  have run := meets_iff.mp h s (before s hs)
  cases read : x.run s with
  | ok r =>
    rw [read] at run
    exact behind r.1 r.2 run
  | error e =>
    rw [read] at run
    exact run

theorem of_imp (h : Meets P' x Q E) (before : ∀ s, P s → P' s) : Meets P x Q E :=
  h.weaken before fun _ _ => id

theorem ite {c : Prop} [Decidable c] {y : StateT σ (Except ε) α} (h : c → Meets P x Q E)
    (h' : ¬c → Meets P y Q E) : Meets P (if c then x else y) Q E := by
  split
  · exact h ‹_›
  · exact h' ‹_›

theorem andM {b : Bool} {x : StateT σ (Except ε) Bool} {Q : Bool → σ → Prop}
    (h : b = true → Meets P x Q E) (h' : ∀ s, P s → b = false → Q false s) :
    Meets P (pure b <&&> x) Q E := by
  cases b with
  | true => exact h rfl
  | false => exact fun s hs => h' s hs rfl

theorem orM {b : Bool} {x : StateT σ (Except ε) Bool} {Q : Bool → σ → Prop}
    (h : b = false → Meets P x Q E) (h' : ∀ s, P s → b = true → Q true s) :
    Meets P (pure b <||> x) Q E := by
  cases b with
  | true => exact fun s hs => h' s hs rfl
  | false => exact h rfl

/-- What is only known to exist before a reader may be chosen. -/
theorem of_exists {R : ι → σ → Prop} (h : ∀ i, Meets (R i) x Q E) (before : ∀ s, P s → ∃ i, R i s) :
    Meets P x Q E := by
  refine meets_iff.mpr fun s hs => ?_
  obtain ⟨i, hi⟩ := before s hs
  exact meets_iff.mp (h i) s hi

end Meets

/-- A reader that fails ends nowhere. -/
theorem throw_meets {Q : α → σ → Prop} (e : ε) :
    Meets (fun _ => E e) (throw e : StateT σ (Except ε) α) Q E := fun _ h => h

end FlowLint.Yaml
