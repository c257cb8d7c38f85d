import Dashboard.Toml.Basic
import Dashboard.Text.Digits
import Dashboard.Word

/-! # TOML numbers and dates

* `Toml.grouped?`: digits with single underscores between them.
* `Toml.number?`: an integer of 64 bits, or a float.
* `Toml.date?`: a date, a time, or both, in its normal text.
-/

namespace Dashboard.Toml
set_option autoImplicit false

/-! ## Numbers -/

/-- Digits after a first one; an underscore has to stand between two digits. -/
def groupedTail (isDigit : Char → Bool) : List Char → Option (List Char × List Char)
  | '_' :: d :: r => if isDigit d then (groupedTail isDigit r).map fun t => (d :: t.1, t.2) else none
  | d :: r =>
    if isDigit d then (groupedTail isDigit r).map fun t => (d :: t.1, t.2)
    else if d = '_' then none
    else some ([], d :: r)
  | [] => some ([], [])

/-- Digits with single underscores between them, the underscores left out. -/
def grouped? (isDigit : Char → Bool) : List Char → Option (List Char × List Char)
  | d :: r => if isDigit d then (groupedTail isDigit r).map fun t => (d :: t.1, t.2) else none
  | [] => none

def decimal? : List Char → Option (List Char × List Char)
  | '0' :: r => some (['0'], r)
  | cs => grouped? Char.isDigit cs

def sign : List Char → Bool × List Char
  | '-' :: r => (true, r)
  | '+' :: r => (false, r)
  | cs => (false, cs)

def int64? (z : Int) : Option Toml := if Word.isSigned z then some (.int z) else none

/-- A float; one too large is refused unless it is negative. -/
def float? (negative : Bool) (digits : List Char) (places : Nat) (exponent : Int) : Option Toml :=
  match Binary64.ofDecimal negative (Text.digitsValue 10 digits) (exponent - (places : Int)) with
  | .infinite false => none
  | x => some (.float x)

def exponent? (cs : List Char) : Option (Int × List Char) := do
  let (down, r) := sign cs
  let (ds, r) ← grouped? Char.isDigit r
  let n : Int := Text.digitsValue 10 ds
  some (if down then -n else n, r)

def based? (base : Nat) (isDigit : Char → Bool) (cs : List Char) : Option (Toml × List Char) := do
  let (ds, r) ← grouped? isDigit cs
  let v ← int64? (Text.digitsValue base ds)
  some (v, r)

def decimalNumber? (negative : Bool) (cs : List Char) : Option (Toml × List Char) := do
  let (whole, r) ← decimal? cs
  match r with
  | '.' :: r => do
    let (fraction, r) ← grouped? Char.isDigit r
    match r with
    | 'e' :: r | 'E' :: r => do
      let (e, r) ← exponent? r
      let v ← float? negative (whole ++ fraction) fraction.length e
      some (v, r)
    | _ => do
      let v ← float? negative (whole ++ fraction) fraction.length 0
      some (v, r)
  | 'e' :: r | 'E' :: r => do
    let (e, r) ← exponent? r
    let v ← float? negative whole 0 e
    some (v, r)
  | _ => do
    let n : Int := Text.digitsValue 10 whole
    let v ← int64? (if negative then -n else n)
    some (v, r)

def number? (cs : List Char) : Option (Toml × List Char) :=
  match cs with
  | '0' :: 'x' :: r => based? 16 (fun d => (Text.hexValue? d).isSome) r
  | '0' :: 'o' :: r => based? 8 (fun d => '0' ≤ d && d ≤ '7') r
  | '0' :: 'b' :: r => based? 2 (fun d => d == '0' || d == '1') r
  | _ =>
    let (negative, r) := sign cs
    match r with
    | 'i' :: 'n' :: 'f' :: r => some (.float (.infinite negative), r)
    | 'n' :: 'a' :: 'n' :: r => some (.float .nan, r)
    | _ => decimalNumber? negative r

/-! ## Dates -/

def fixed? (width : Nat) (cs : List Char) : Option (Nat × List Char) :=
  let ds := cs.take width
  if ds.length = width ∧ ds.all Char.isDigit then some (Text.digitsValue 10 ds, cs.drop width) else none

def two? (low high : Nat) (cs : List Char) : Option (Nat × List Char) := do
  let (n, r) ← fixed? 2 cs
  if low ≤ n ∧ n ≤ high then some (n, r) else none

def past? (c : Char) : List Char → Option (List Char)
  | d :: r => if d = c then some r else none
  | [] => none

def padded (width n : Nat) : List Char :=
  let ds := Nat.toDigits 10 n
  List.replicate (width - ds.length) '0' ++ ds

def daysIn (year month : Nat) : Nat :=
  if month = 2 then
    if (year % 4 = 0 ∧ year % 100 ≠ 0) ∨ year % 400 = 0 then 29 else 28
  else if month = 4 ∨ month = 6 ∨ month = 9 ∨ month = 11 then 30
  else 31

def day? (cs : List Char) : Option (List Char × List Char) := do
  let (year, r) ← fixed? 4 cs
  let (month, r) ← two? 1 12 (← past? '-' r)
  let (day, r) ← two? 1 (daysIn year month) (← past? '-' r)
  some (padded 4 year ++ '-' :: (padded 2 month ++ '-' :: padded 2 day), r)

/-- A fraction of a second: nine digits count, and trailing zeros are not written. -/
def fraction? : List Char → Option (List Char × List Char)
  | '.' :: r =>
    let ds := r.takeWhile Char.isDigit
    if ds = [] then none
    else
      let kept := ((ds.take 9).reverse.dropWhile (· = '0')).reverse
      some (if kept = [] then [] else '.' :: kept, r.drop ds.length)
  | cs => some ([], cs)

def clock? (cs : List Char) : Option (List Char × List Char) := do
  let (hour, r) ← two? 0 23 cs
  let (minute, r) ← two? 0 59 (← past? ':' r)
  let (second, r) ← two? 0 60 (← past? ':' r)
  let (fraction, r) ← fraction? r
  some (padded 2 hour ++ ':' :: (padded 2 minute ++ ':' :: padded 2 second) ++ fraction, r)

def offset? (cs : List Char) : Option (List Char × List Char) :=
  match cs with
  | 'Z' :: r | 'z' :: r => some (['Z'], r)
  | '+' :: r | '-' :: r => do
    let (hour, r) ← two? 0 23 r
    let (minute, r) ← two? 0 59 (← past? ':' r)
    let s := if cs.head? = some '-' ∧ hour * 60 + minute ≠ 0 then '-' else '+'
    some (s :: (padded 2 hour ++ ':' :: padded 2 minute), r)
  | _ => some ([], cs)

/-- A value looks like a date: four digits and a hyphen. -/
def looksLikeDay (cs : List Char) : Bool := ((fixed? 4 cs).bind fun r => past? '-' r.2).isSome

def looksLikeClock (cs : List Char) : Bool := ((two? 0 23 cs).bind fun r => past? ':' r.2).isSome

/-- A date, a date with a time, or a time. The time follows after a letter or a space. -/
def date? (cs : List Char) : Option (Toml × List Char) := do
  if looksLikeDay cs then
    let (day, r) ← day? cs
    let timed : Option (List Char) := match r with
      | 'T' :: t | 't' :: t | ' ' :: t => if looksLikeClock t then some t else none
      | _ => none
    match timed with
    | none => some (.date (String.ofList day), r)
    | some t => do
      let (clock, r) ← clock? t
      let (offset, r) ← offset? r
      some (.date (String.ofList (day ++ 'T' :: (clock ++ offset))), r)
  else
    let (clock, r) ← clock? cs
    some (.date (String.ofList clock), r)

def scalar? (cs : List Char) : Option (Toml × List Char) :=
  if looksLikeDay cs || looksLikeClock cs then date? cs else number? cs

end Dashboard.Toml
