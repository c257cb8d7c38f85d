import Dashboard.Json.Basic
import Dashboard.Json.Cursor
import Dashboard.Text.Digits

/-! # Strings and numbers of a JSON text

* `Json.fourHex`: the four digits of an escape.
* `Json.escaped`: one escape, after its backslash.
* `Json.stringBody`: the characters of a string, after its opening quote.
* `Json.Number`, `Json.number`: a number, after its sign.
-/

namespace Dashboard.Json
set_option autoImplicit false

/-! ## Strings -/

/-- The number that the next four bytes write. Fewer than four bytes end the string. -/
def fourHex (c : Cursor) : Except Fault Nat :=
  if ((c.rest.take 4).map Char.utf8Size).foldr (· + ·) 0 < 4 then c.failAfter 4 .endInString
  else
    match (c.rest.take 4).map Text.hexValue? with
    | [some a, some b, some d, some e] => .ok (((a * 16 + b) * 16 + d) * 16 + e)
    | _ => c.failAfter 4 .invalidEscape

def isLeading (n : Nat) : Bool := 0xD800 ≤ n && n ≤ 0xDBFF

def isTrailing (n : Nat) : Bool := 0xDC00 ≤ n && n ≤ 0xDFFF

def pairValue (lead trail : Nat) : Nat := (lead - 0xD800) * 0x400 + (trail - 0xDC00) + 0x10000

/-- The character that `\u` writes, and the number of characters taken after the `u`. -/
def unicodeEscape (c : Cursor) : Except Fault (Char × Nat) := do
  let n ← fourHex c
  let c := c.advance 4
  if isTrailing n then c.fail .loneSurrogate
  else if !isLeading n then .ok (Char.ofNat n, 4)
  else
    match c.rest with
    | [] => c.fail .endInString
    | '\\' :: _ =>
      let c := c.advance 1
      match c.rest with
      | [] => c.fail .endInString
      | 'u' :: _ => do
        let c := c.advance 1
        let m ← fourHex c
        if isTrailing m then .ok (Char.ofNat (pairValue n m), 10)
        else (c.advance 4).fail .loneSurrogate
      | _ => c.failAfter 1 .endOfHexEscape
    | _ => c.failAfter 1 .endOfHexEscape

/-- The character of an escape, and the number of characters taken after the backslash. -/
def escaped (c : Cursor) : Except Fault (Char × Nat) :=
  match c.rest with
  | [] => c.fail .endInString
  | '"' :: _ => .ok ('"', 1)
  | '\\' :: _ => .ok ('\\', 1)
  | '/' :: _ => .ok ('/', 1)
  | 'b' :: _ => .ok ('\x08', 1)
  | 'f' :: _ => .ok ('\x0c', 1)
  | 'n' :: _ => .ok ('\n', 1)
  | 'r' :: _ => .ok ('\r', 1)
  | 't' :: _ => .ok ('\t', 1)
  | 'u' :: _ => (unicodeEscape (c.advance 1)).map fun r => (r.1, r.2 + 1)
  | _ => c.failAfter 1 .invalidEscape

def stringBody (c : Cursor) : Except Fault (List Char × Cursor) :=
  match _h : c.rest with
  | [] => c.fail .endInString
  | x :: _ =>
    if x = '"' then .ok ([], c.advance 1)
    else if x = '\\' then
      match escaped (c.advance 1) with
      | .error f => .error f
      | .ok (y, n) => (stringBody (c.advance (n + 1))).map fun r => (y :: r.1, r.2)
    else if x.toNat < 0x20 then c.failAfter 1 .controlCharacter
    else (stringBody (c.advance 1)).map fun r => (x :: r.1, r.2)
termination_by c.rest.length
decreasing_by all_goals exact Cursor.length_advance_lt _h _

def string (c : Cursor) : Except Fault (String × Cursor) :=
  (stringBody c).map fun r => (String.ofList r.1, r.2)

/-! ## Numbers -/

inductive Number where
  | int (z : Int)
  | float (x : Binary64)
  deriving DecidableEq, Repr

/-- The digits where the cursor stands, and the cursor after them. -/
def digits (c : Cursor) : List Char × Cursor :=
  let ds := c.rest.takeWhile Char.isDigit
  (ds, c.advance ds.length)

def exponentBound : Nat := 2147483647

/-- How many of the digits are read until the exponent exceeds its bound, if it does. -/
def overlong? (ds : List Char) : Option Nat :=
  (List.range (ds.length + 1)).find? fun k => exponentBound < Text.digitsValue 10 (ds.take k)

/-- The binary64 of the digits `significand` with `places` of them after the point, times ten to the
exponent. -/
def scaledFloat (negative : Bool) (significand : List Char) (places : Nat) (exponent : Int) (c : Cursor) :
    Except Fault (Number × Cursor) :=
  match Binary64.ofDecimal negative (Text.digitsValue 10 significand) (exponent - (places : Int)) with
  | .infinite _ => c.fail .numberOutOfRange
  | x => .ok (.float x, c)

def exponentPart (negative : Bool) (significand : List Char) (places : Nat) (c : Cursor) :
    Except Fault (Number × Cursor) :=
  let (down, c) : Bool × Cursor :=
    match c.rest with
    | '+' :: _ => (false, c.advance 1)
    | '-' :: _ => (true, c.advance 1)
    | _ => (false, c)
  match c.rest with
  | [] => c.fail .endInValue
  | x :: _ =>
    if !x.isDigit then c.failAfter 1 .invalidNumber
    else
      let (ds, after) := digits c
      match overlong? ds with
      | some k =>
        if !down && Text.digitsValue 10 significand ≠ 0 then (c.advance k).fail .numberOutOfRange
        else .ok (.float (.zero negative), after)
      | none =>
        let e : Int := Text.digitsValue 10 ds
        scaledFloat negative significand places (if down then -e else e) after

/-- The integer that the digits write; one beyond 64 bits, and the negative zero, are floats. -/
def wholeNumber (negative : Bool) (ds : List Char) (c : Cursor) : Except Fault (Number × Cursor) :=
  let n := Text.digitsValue 10 ds
  if negative then
    if n = 0 then .ok (.float (.zero true), c)
    else if n ≤ Word.signedBound then .ok (.int (-(n : Int)), c)
    else scaledFloat true ds 0 0 c
  else if n < Word.bound then .ok (.int n, c)
  else scaledFloat false ds 0 0 c

/-- The digits before the point: a zero alone, or digits that begin otherwise. -/
def leadingDigits (c : Cursor) : Except Fault (List Char × Cursor) :=
  match c.rest with
  | [] => c.fail .endInValue
  | '0' :: _ =>
    let after := c.advance 1
    match after.rest with
    | x :: _ => if x.isDigit then after.failAfter 1 .invalidNumber else .ok (['0'], after)
    | [] => .ok (['0'], after)
  | x :: _ => if x.isDigit then .ok (digits c) else c.failAfter 1 .invalidNumber

def number (negative : Bool) (c : Cursor) : Except Fault (Number × Cursor) := do
  let (whole, c) ← leadingDigits c
  match c.rest with
  | '.' :: _ =>
    let (fraction, c) := digits (c.advance 1)
    if fraction = [] then
      if c.rest = [] then c.fail .endInValue else c.failAfter 1 .invalidNumber
    else
      match c.rest with
      | 'e' :: _ | 'E' :: _ => exponentPart negative (whole ++ fraction) fraction.length (c.advance 1)
      | _ => scaledFloat negative (whole ++ fraction) fraction.length 0 c
  | 'e' :: _ | 'E' :: _ => exponentPart negative whole 0 (c.advance 1)
  | _ => wholeNumber negative whole c

def Number.toJson : Number → Json
  | .int z => .int z
  | .float x => .float x

end Dashboard.Json
