/-! # Binary floating-point numbers with 53 significant bits

Numbers are exact integers `± m · 2 ^ e`; every operation is exact `Nat` arithmetic and one rounding.

* `Binary64`: the finite numbers, the two infinities and not-a-number.
* `roundHalfEven`: a quotient rounded to the nearest integer, a tie to the even one.
* `Binary64.ofRatio`, `Binary64.ofDecimal`: the number nearest to a quotient or a decimal.
* `Binary64.ofInt`: the number nearest to an integer.
* `Binary64.roundToNat`: the nearest natural number below a bound, a tie away from zero.
-/

namespace Dashboard
set_option autoImplicit false

/-- A number of binary64. A finite one is `m · 2 ^ e` with `m < 2 ^ 53` and `-1074 ≤ e ≤ 971`; below
`2 ^ 52` the mantissa has `e = -1074`, so each value has one form. -/
inductive Binary64 where
  | finite (negative : Bool) (mantissa : Nat) (exponent : Int)
  | infinite (negative : Bool)
  | nan
  deriving DecidableEq, Repr

def roundHalfEven (n d : Nat) : Nat :=
  let q := n / d
  let r := n % d
  if 2 * r < d then q
  else if d < 2 * r then q + 1
  else if q % 2 = 0 then q else q + 1

namespace Binary64

/-! ## Rounding to the nearest number -/

def zero (negative : Bool) : Binary64 := .finite negative 0 (-1074)

private def scaled (n d : Nat) (e : Int) : Nat × Nat :=
  if e < 0 then (n * Nat.pow 2 e.natAbs, d) else (n, d * Nat.pow 2 e.natAbs)

/-- The number nearest to `n / d`, a tie to the even mantissa; beyond the largest number, infinity. -/
def ofRatio (negative : Bool) (n d : Nat) : Binary64 :=
  if n = 0 then zero negative
  else
    let low : Int := max ((n.log2 : Int) - (d.log2 : Int) - 53) (-1074)
    let s := scaled n d low
    let e := if s.2 * Nat.pow 2 53 ≤ s.1 then low + 1 else low
    let t := scaled n d e
    let m := roundHalfEven t.1 t.2
    let r := if m = Nat.pow 2 53 then (Nat.pow 2 52, e + 1) else (m, e)
    if 971 < r.2 then .infinite negative else .finite negative r.1 r.2

/-- The number nearest to `digits · 10 ^ exponent`. Far outside the range the power is not computed. -/
def ofDecimal (negative : Bool) (digits : Nat) (exponent : Int) : Binary64 :=
  if digits = 0 then zero negative
  else if 400 < exponent then .infinite negative
  else if exponent + (digits.log2 : Int) < -400 then zero negative
  else if exponent < 0 then ofRatio negative digits (Nat.pow 10 exponent.natAbs)
  else ofRatio negative (digits * Nat.pow 10 exponent.natAbs) 1

def ofInt (z : Int) : Binary64 := ofRatio (z < 0) z.natAbs 1

/-! ## Rounding to a natural number -/

/-- The nearest integer to `m · 2 ^ e`, a tie away from zero. -/
def magnitude (m : Nat) (e : Int) : Nat :=
  if e < 0 then (2 * m + Nat.pow 2 e.natAbs) / (2 * Nat.pow 2 e.natAbs) else m * Nat.pow 2 e.natAbs

/-- The nearest natural number up to `bound`, a tie away from zero. What lies below zero gives zero, what
lies above the bound gives the bound, and not-a-number gives zero. -/
def roundToNat (bound : Nat) : Binary64 → Nat
  | .finite false m e => min (magnitude m e) bound
  | .finite true _ _ => 0
  | .infinite false => bound
  | .infinite true => 0
  | .nan => 0

end Binary64
end Dashboard
