import FlowLint.Json.Value

/-! The binary number with 53 digits that stands nearest to a decimal fraction. It is asked only
whether it is an integer, and which one. -/

namespace FlowLint.Json

/-- The integer next to `num / den`; of two that are equally near, the even one. -/
def roundDiv (num den : Nat) : Nat :=
  let q := num / den
  let twice := 2 * (num % den)
  if den < twice || (twice == den && q % 2 == 1) then q + 1 else q

/-- The largest power of two that is at most `num / den`, as an exponent. -/
def floorLog2 (num den : Nat) : Int :=
  let guess : Int := (Nat.log2 num : Int) - Nat.log2 den
  let holds (k : Int) : Bool :=
    if 0 ≤ k then decide (den * Nat.pow 2 k.toNat ≤ num)
    else decide (den ≤ num * Nat.pow 2 (-k).toNat)
  if holds guess then guess else guess - 1

/-- The least exponent of the last digit of a binary number. -/
def leastExponent : Int := -1074

/-- The binary number nearest to `num / den`, as digits and the exponent of the last of them. -/
def nearest (num den : Nat) : Nat × Int :=
  if num == 0 then (0, 0)
  else
    let e := max (floorLog2 num den - 52) leastExponent
    let digits :=
      if 0 ≤ e then roundDiv num (den * Nat.pow 2 e.toNat)
      else roundDiv (num * Nat.pow 2 (-e).toNat) den
    (digits, e)

/-- What a fraction is in binary. -/
inductive Whole where
  | integer (n : Nat)
  | fraction
  | tooLarge
  deriving DecidableEq, Repr

/-- The integer that `mantissa` with its point moved by `exponent` places is in binary. Numbers from
`2 ^ 1024` on are infinite. -/
def whole (mantissa : Nat) (exponent : Int) : Whole :=
  -- A number this large or this small needs no powers of ten.
  let digits : Int := (Nat.toDigits 10 mantissa).length
  if mantissa == 0 then .integer 0
  else if 400 < digits + exponent then .tooLarge
  else if digits + exponent < -400 then .integer 0
  else
    let (num, den) := if 0 ≤ exponent then (mantissa * Nat.pow 10 exponent.toNat, 1)
      else (mantissa, Nat.pow 10 (-exponent).toNat)
    let (m, e) := nearest num den
    if 0 ≤ e then
      let n := m * Nat.pow 2 e.toNat
      if Nat.pow 2 1024 ≤ n then .tooLarge else .integer n
    else if m % Nat.pow 2 (-e).toNat == 0 then .integer (m / Nat.pow 2 (-e).toNat)
    else .fraction

example : whole 300 (-1) = .integer 30 ∧ whole 25 (-1) = .fraction ∧ whole 1 3 = .integer 1000 := by
  decide +kernel
example : whole 1 23 = .integer 99999999999999991611392 ∧ whole 1 400 = .tooLarge := by
  decide +kernel

end FlowLint.Json
