import Dashboard.Binary64.Basic

/-! # The fewest digits that read back

* `Binary64.shortest`: of all decimals that round to a given number, one with the fewest digits, and of
  those the nearest.
* `Binary64.positional`, `Binary64.scientific`: the two ways of writing digits and a power of ten.
* `Binary64.dataText`: the form used in data documents, with a point or an exponent always.
* `Binary64.plainText`: the form used for plain texts, without an exponent ever.
* `Binary64.pointedText`: the plain form with a point always.
-/

namespace Dashboard.Binary64
set_option autoImplicit false

/-! ## Choosing the digits -/

/-- The interval of reals that round to `m · 2 ^ e`, in quarters of `2 ^ e`: lower end, centre, upper end.
Below a power of two the neighbour is half as far. -/
def interval (m : Nat) (e : Int) : Nat × Nat × Nat :=
  if m = Nat.pow 2 52 ∧ -1074 < e then (4 * m - 1, 4 * m, 4 * m + 2) else (4 * m - 2, 4 * m, 4 * m + 2)

/-- A quarter of `2 ^ e`, divided by `10 ^ s`, as a fraction. -/
def gridUnit (e s : Int) : Nat × Nat :=
  let two := if e < 2 then (1, Nat.pow 2 (e - 2).natAbs) else (Nat.pow 2 (e - 2).natAbs, 1)
  if s < 0 then (two.1 * Nat.pow 10 s.natAbs, two.2) else (two.1, two.2 * Nat.pow 10 s.natAbs)

/-- The exponent `p` with `10 ^ p ≤ m · 2 ^ e < 10 ^ (p + 1)`. -/
def leading (m : Nat) (e : Int) : Int :=
  let atLeast (p : Int) : Bool := let u := gridUnit e p; u.2 ≤ 4 * m * u.1
  let p := ((m.log2 : Int) + e) * 30103 / 100000
  if atLeast (p + 1) then p + 1 else if atLeast p then p else p - 1

/-- The multiple of `10 ^ s` that is nearest to `m · 2 ^ e` among the two beside it, if one of them rounds
to that number. -/
def onGrid (m : Nat) (e s : Int) : Option Nat :=
  let (low, mid, high) := interval m e
  let (a, b) := gridUnit e s
  let inside (c : Nat) : Bool :=
    if m % 2 = 0 then low * a ≤ c * b && c * b ≤ high * a else low * a < c * b && c * b < high * a
  let c := mid * a / b
  let lowerFits := inside c
  let upperFits := inside (c + 1)
  if lowerFits && upperFits then
    let below := mid * a - c * b
    let above := (c + 1) * b - mid * a
    if below < above then some c
    else if above < below then some (c + 1)
    else if c % 2 = 0 then some c else some (c + 1)
  else if lowerFits then some c
  else if upperFits then some (c + 1)
  else none

/-- Moves trailing zeros of the digits into the exponent. At most `fuel` zeros are moved. -/
def dropZeros : Nat → Nat → Int → Nat × Int
  | 0, d, s => (d, s)
  | fuel + 1, d, s => if d ≠ 0 ∧ d % 10 = 0 then dropZeros fuel (d / 10) (s + 1) else (d, s)

/-- Digits `d` and exponent `s` such that `d · 10 ^ s` rounds to `m · 2 ^ e`, with as few digits as possible.
Seventeen digits always suffice. -/
def shortest (m : Nat) (e : Int) : Nat × Int :=
  let p := leading m e
  let tries := (List.range 18).findSome? fun (k : Nat) =>
    let s := p - (k : Int)
    (onGrid m e s).map fun d => dropZeros 20 d s
  tries.getD (0, 0)

/-! ## Writing them -/

/-- The digits of `d · 10 ^ s` without an exponent; an integer gets no point. -/
def positional (d : Nat) (s : Int) : String :=
  let ds := Nat.toDigits 10 d
  if 0 ≤ s then String.ofList (ds ++ List.replicate s.natAbs '0')
  else
    let places := s.natAbs
    if places < ds.length then
      String.ofList (ds.take (ds.length - places)) ++ "." ++ String.ofList (ds.drop (ds.length - places))
    else "0." ++ String.ofList (List.replicate (places - ds.length) '0' ++ ds)

/-- The digits of `d · 10 ^ s` with one digit before the point and a signed exponent. -/
def scientific (d : Nat) (s : Int) : String :=
  let ds := Nat.toDigits 10 d
  let x := s + (ds.length : Int) - 1
  let mantissa := match ds with
    | [] => ""
    | [c] => String.singleton c
    | c :: rest => String.singleton c ++ "." ++ String.ofList rest
  mantissa ++ "e" ++ (if x < 0 then "-" else "+") ++ toString x.natAbs

def withPoint (t : String) : String := if t.toList.contains '.' then t else t ++ ".0"

private def signText (negative : Bool) : String := if negative then "-" else ""

/-- The form of a finite number in data documents: positional for powers of ten from -5 to 15, and always
with a point or an exponent. -/
def dataText : Binary64 → String
  | .finite negative m e =>
    let body :=
      if m = 0 then "0.0"
      else
        let (d, s) := shortest m e
        let x := s + ((Nat.toDigits 10 d).length : Int) - 1
        if -5 ≤ x && x ≤ 15 then withPoint (positional d s) else scientific d s
    signText negative ++ body
  | .infinite negative => signText negative ++ "inf"
  | .nan => "NaN"

/-- The form of a number in plain texts: always positional, and without a point if it is an integer. -/
def plainText : Binary64 → String
  | .finite negative m e =>
    let body := if m = 0 then "0" else let (d, s) := shortest m e; positional d s
    signText negative ++ body
  | .infinite negative => signText negative ++ "inf"
  | .nan => "NaN"

def pointedText : Binary64 → String
  | .finite negative m e => withPoint (plainText (.finite negative m e))
  | x => plainText x

end Dashboard.Binary64
