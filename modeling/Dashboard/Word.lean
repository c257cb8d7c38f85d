/-! # Integers of 64 bits

* `Word.bound`: natural numbers of 64 bits lie below it.
* `Word.signedBound`, `Word.isSigned`: integers of 64 bits with a sign.
-/

namespace Dashboard.Word
set_option autoImplicit false

def bound : Nat := 18446744073709551616

def signedBound : Nat := 9223372036854775808

def isSigned (z : Int) : Bool := -(signedBound : Int) ≤ z && z < (signedBound : Int)

end Dashboard.Word
