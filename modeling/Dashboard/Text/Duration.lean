/-! # Durations

* `Text.duration`: a number of milliseconds in the largest unit that has a whole part.
-/

namespace Dashboard.Text
set_option autoImplicit false

def withoutZeros (ds : List Char) : List Char := (ds.reverse.dropWhile (· == '0')).reverse

/-- A number of milliseconds. Seconds carry the rest as a fraction without trailing zeros. -/
def duration (ms : Nat) : String :=
  if ms = 0 then "0ns"
  else if ms < 1000 then toString ms ++ "ms"
  else
    let rest := ms % 1000
    let fraction := withoutZeros (Nat.toDigits 10 (1000 + rest)).tail
    toString (ms / 1000) ++
      (if fraction = [] then "" else "." ++ String.ofList fraction) ++ "s"

end Dashboard.Text
