import Dashboard.Text.Digits

/-! # Hosts

A host is a name in dotted parts, an address of four bytes, or an address of eight groups in brackets.

* `Host.unescape`: a host with its percent signs read.
* `Host.isQuad`: the parts of an address of four bytes, in decimal, octal or hexadecimal.
* `Host.isName`: a name in ASCII. A name whose last part is a number has to be an address of four bytes.
* `Host.isGrouped`: an address of eight groups. Two colons stand for a run of groups that are zero.
-/

namespace Dashboard.Endpoint.Host
set_option autoImplicit false

def splitAt (sep : Char) : List Char → List (List Char)
  | [] => [[]]
  | c :: cs =>
    if c = sep then [] :: splitAt sep cs
    else match splitAt sep cs with
      | [] => [[c]]
      | part :: parts => (c :: part) :: parts

/-- Two hexadecimal digits after a percent sign stand for the byte that they write. -/
def unescape : List Char → List Char
  | '%' :: h :: l :: cs =>
    match Text.hexValue? h, Text.hexValue? l with
    | some h, some l => Char.ofNat (16 * h + l) :: unescape cs
    | _, _ => '%' :: unescape (h :: l :: cs)
  | c :: cs => c :: unescape cs
  | [] => []

/-! ## Numbers -/

/-- The number that digits write in a base; no digits write zero. -/
def inBase? (base : Nat) (ds : List Char) : Option Nat :=
  if ds.all fun d => (Text.hexValue? d).any (· < base) then some (Text.digitsValue base ds) else none

/-- The number that a part writes: hexadecimal after `0x`, octal after another leading zero, else decimal. -/
def number? : List Char → Option Nat
  | [] => none
  | '0' :: 'x' :: ds => inBase? 16 ds
  | '0' :: 'X' :: ds => inBase? 16 ds
  | '0' :: d :: ds => inBase? 8 (d :: ds)
  | ds => inBase? 10 ds

def isNumeric (part : List Char) : Bool :=
  (number? part).isSome || (part ≠ [] && part.all Char.isDigit)

/-- Up to four numbers that make an address of four bytes: all but the last are bytes, and the last one
fills the bytes that are left. -/
def isQuad (parts : List (List Char)) : Bool :=
  parts.length ≤ 4 &&
    match parts.mapM number? with
    | none => false
    | some ns => ns.dropLast.all (· < 256) && ns.getLast?.any (· < Nat.pow 256 (5 - ns.length))

/-! ## Names -/

def isNameChar (c : Char) : Bool :=
  c.isAlphanum || c ∈ ['.', '-', '_', '~', '!', '$', '&', '\'', '(', ')', '*', '+', ',', ';', '=']

def isEncoded (part : List Char) : Bool := (part.take 4).map Char.toLower = ['x', 'n', '-', '-']

/-- A name that is looked up as it stands. One whose last part is a number has to be an address of four
bytes; a dot at the end does not count. -/
def isName (cs : List Char) : Bool :=
  let parts := splitAt '.' cs
  let parts := if parts.getLast? = some [] then parts.dropLast else parts
  cs ≠ [] && cs.all isNameChar && !parts.any isEncoded &&
    (!parts.getLast?.any isNumeric || isQuad parts)

/-! ## Groups -/

/-- A group of an address: one to four hexadecimal digits. -/
def isGroup (g : List Char) : Bool :=
  g ≠ [] && g.length ≤ 4 && g.all fun c => (Text.hexValue? c).isSome

def isByte (b : List Char) : Bool :=
  b ≠ [] && b.all Char.isDigit && (b.head? ≠ some '0' || b.length = 1) && Text.digitsValue 10 b < 256

/-- Four bytes between dots, which take the place of two groups. -/
def isBytes (g : List Char) : Bool :=
  let bs := splitAt '.' g
  bs.length = 4 && bs.all isByte

/-- The number of groups between colons. Four bytes can stand at the very end of an address. -/
def groupCount? (atEnd : Bool) (cs : List Char) : Option Nat :=
  let gs := splitAt ':' cs
  if cs = [] then some 0
  else if gs.all isGroup then some gs.length
  else if atEnd && gs.dropLast.all isGroup && gs.getLast?.any isBytes then some (gs.length + 1)
  else none

/-- The text before the first two colons and the text after them. -/
def gap? : List Char → Option (List Char × List Char)
  | ':' :: ':' :: cs => some ([], cs)
  | c :: cs => (gap? cs).map fun r => (c :: r.1, r.2)
  | [] => none

def isGrouped (cs : List Char) : Bool :=
  match gap? cs with
  | none => groupCount? true cs = some 8
  | some (left, right) =>
    match groupCount? false left, groupCount? true right with
    | some m, some n => m + n < 8
    | _, _ => false

end Dashboard.Endpoint.Host
