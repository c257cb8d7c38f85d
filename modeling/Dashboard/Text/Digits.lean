import Dashboard.Word

/-! # Numbers in digits

* `Text.hexValue?`: the value of a digit in any base up to sixteen.
* `Text.digitsValue`: the number that digits write in a base.
* `Text.natural?`: the number that a text writes in decimal, if it fits into 64 bits.
-/

namespace Dashboard.Text
set_option autoImplicit false

def hexValue? (c : Char) : Option Nat :=
  if c.isDigit then some (c.toNat - '0'.toNat)
  else if 'a' ≤ c ∧ c ≤ 'f' then some (c.toNat - 'a'.toNat + 10)
  else if 'A' ≤ c ∧ c ≤ 'F' then some (c.toNat - 'A'.toNat + 10)
  else none

def digitsValue (base : Nat) (ds : List Char) : Nat :=
  ds.foldl (fun n d => n * base + (hexValue? d).getD 0) 0

/-- The natural number of 64 bits that a text writes in decimal digits, with a plus sign or without. -/
def natural? (s : String) : Option UInt64 :=
  let ds := match s.toList with
    | '+' :: ds => ds
    | ds => ds
  let n := digitsValue 10 ds
  if ds ≠ [] ∧ ds.all Char.isDigit ∧ n < Word.bound then some (UInt64.ofNat n) else none

end Dashboard.Text
