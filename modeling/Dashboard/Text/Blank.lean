/-! # Blank characters and trimming

* `isBlank`: the characters with the Unicode property White_Space (25 code points).
* `strip p`: a text without the characters of class `p` at either end.
* `trim`: `strip` for blanks.
-/

namespace Dashboard.Text
set_option autoImplicit false

def isBlank (c : Char) : Bool :=
  let n := c.toNat
  (9 ≤ n && n ≤ 13) || n == 0x20 || n == 0x85 || n == 0xA0 || n == 0x1680 ||
    (0x2000 ≤ n && n ≤ 0x200A) || n == 0x2028 || n == 0x2029 || n == 0x202F || n == 0x205F ||
    n == 0x3000

/-! ## Removing a class of characters at the ends -/

/-- The text without its leading characters of class `p`. -/
def stripStart (p : Char → Bool) (cs : List Char) : List Char := cs.dropWhile p

/-- The text without its trailing characters of class `p`. -/
def stripEnd (p : Char → Bool) (cs : List Char) : List Char := (cs.reverse.dropWhile p).reverse

def strip (p : Char → Bool) (cs : List Char) : List Char := stripEnd p (stripStart p cs)

def trim (s : String) : String := String.ofList (strip isBlank s.toList)

theorem stripEnd_reverse (p : Char → Bool) (cs : List Char) :
    stripEnd p cs.reverse = (stripStart p cs).reverse := by
  simp [stripEnd, stripStart]

end Dashboard.Text
