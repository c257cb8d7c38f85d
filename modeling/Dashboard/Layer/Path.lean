import Dashboard.Layer.Tree
import Dashboard.Text.Digits

/-! # Names with several parts

A name such as `server.base_url` or `servers[0].name` says where a value belongs. A name that is not of this form belongs
to the top as it stands.

* `Layer.Step`: one part of a name.
* `Layer.steps?`, `Layer.stepsOf`: the parts of a name.
* `Layer.place`: a value put where its name says.
* `Layer.overlay`: a whole layer over what is there.
-/

namespace Dashboard.Layer
set_option autoImplicit false

/-! ## Parts of names -/

/-- A name in a table, or a position in an array; a negative position counts from the end. -/
inductive Step where
  | child (name : String)
  | index (i : Int)
  deriving DecidableEq, Repr

def stepsText : List Step → String
  | [] => ""
  | .child name :: rest =>
    let dot := match rest with
      | .child _ :: _ => "."
      | _ => ""
    name ++ dot ++ stepsText rest
  | .index i :: rest =>
    let dot := match rest with
      | .child _ :: _ => "."
      | _ => ""
    "[" ++ toString i ++ "]" ++ dot ++ stepsText rest

def isNameChar (c : Char) : Bool := c.isAlphanum || c == '_' || c == '-' || c == ' '

def name? (cs : List Char) : Option (Step × List Char) :=
  match cs.takeWhile isNameChar with
  | [] => none
  | name => some (.child (lowerName (String.ofList name)), cs.dropWhile isNameChar)

def isGap (c : Char) : Bool := c == ' ' || c == '\t'

/-- A position and the bracket that closes it. It has to fit into 64 bits. -/
def index? (cs : List Char) : Option (Step × List Char) :=
  let cs := cs.dropWhile isGap
  let (negative, cs) := match cs with
    | '-' :: r => (true, r)
    | r => (false, r)
  match cs.takeWhile Char.isDigit, (cs.dropWhile Char.isDigit).dropWhile isGap with
  | d :: ds, ']' :: rest =>
    let n := Text.digitsValue 10 (d :: ds)
    let i : Int := if negative then -n else n
    if Word.isSigned i then some (.index i, rest) else none
  | _, _ => none

/-- The parts after the first. The first argument bounds their number. -/
def furtherSteps? : Nat → List Char → Option (List Step)
  | _, [] => some []
  | 0, _ => none
  | n + 1, c :: r => do
    let (s, r) ← if c = '.' then name? r else if c = '[' then index? r else none
    let rest ← furtherSteps? n r
    some (s :: rest)

def steps? (name : String) : Option (List Step) := do
  let (s, r) ← name? name.toList
  let rest ← furtherSteps? r.length r
  some (s :: rest)

/-- The parts of a name, which is its own only part if it has no such form. -/
def stepsOf (name : String) : List Step := (steps? name).getD [.child (lowerName name)]

/-! ## Placing a value -/

/-- The position that a step means in an array of so many items. -/
def position? (length : Nat) (i : Int) : Option Nat :=
  if 0 ≤ i then some i.toNat
  else if i.natAbs ≤ length then some (length - i.natAbs)
  else none

/-- Changes the item at a position; missing items before it are filled in as null. -/
def changeItem (i : Int) (change : Tree → Tree) (items : List Tree) : List Tree :=
  match position? items.length i with
  | none => items
  | some n =>
    let filled := items ++ List.replicate (n + 1 - items.length) (.leaf none .null)
    filled.modify n change

/-- A value put where the steps lead. At the end of a name it is merged, and at a position it replaces what is there. -/
def place (v : Tree) : List Step → Option Tree → Tree
  | [], old => merge old v
  | .child name :: rest, old =>
    .table (asTable old).1
      (Entries.put name (place v rest ((asTable old).2.lookup name)) (asTable old).2)
  | .index i :: [], old => .array (asArray old).1 (changeItem i (fun _ => v) (asArray old).2)
  | .index i :: s :: rest, old =>
    .array (asArray old).1 (changeItem i (fun t => place v (s :: rest) (some t)) (asArray old).2)

/-- The values of a layer put over what is there, each where its name says. -/
def overlay (base : Tree) (layer : Entries Tree) : Tree :=
  layer.foldl (fun t e => place e.2 (stepsOf e.1) (some t)) base

end Dashboard.Layer
