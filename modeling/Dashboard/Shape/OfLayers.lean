import Dashboard.Shape.Basic
import Dashboard.Layer.Path
import Dashboard.Binary64.Shortest
import Dashboard.Text.Digits
import Dashboard.Word

/-! # Reading a shape from merged layers

A layer may hold all its values as texts, so types are taken loosely: a text that writes a number is that number, and a
number is its text.

* `Layer.Fault`: why a value cannot be read, and where.
* `Layer.Tree.asNatural`, `Layer.Tree.asText`: the conversions of single values.
* `Shape.ofLayers`: merged layers as a value of a shape.
-/

namespace Dashboard
set_option autoImplicit false

namespace Layer

/-! ## Faults -/

/-- Why merged layers cannot be read: a value without the conversion asked for, or one that cannot be a record. -/
inductive Fault where
  | noConversion (found : Found) (expected : String) (key : List Step) (origin : Option String)
  | unfit (m : Mismatch)
  deriving DecidableEq, Repr

def Fault.below (s : Step) : Fault → Fault
  | .noConversion found expected key origin => .noConversion found expected (s :: key) origin
  | .unfit m => .unfit m

/-- The words for a value without a conversion; integers tell their width. -/
def Fault.words : Found → String
  | .integer z => "64-bit integer " ++ ticked (toString z)
  | found => found.words Binary64.pointedText "unit value"

def Fault.message : Fault → String
  | .noConversion found expected key origin =>
    "invalid type: " ++ words found ++ ", expected " ++ expected
      ++ (if key = [] then "" else " for key " ++ ticked (stepsText key))
      ++ origin.elim "" (" in " ++ ·)
  | .unfit m => m.message Binary64.pointedText "unit value"

/-! ## Conversions -/

/-- The fault of a value that was asked for as something else. -/
def Tree.noConversion (t : Tree) (expected : String) : Fault :=
  .noConversion t.found expected [] t.origin

def truthOfText? (s : String) : Option Bool :=
  let w := lowerName s
  if w = "true" ∨ w = "on" ∨ w = "yes" then some true
  else if w = "false" ∨ w = "off" ∨ w = "no" then some false
  else none

def naturalOfBool (b : Bool) : UInt64 := if b then 1 else 0

def Tree.asNatural (t : Tree) : Except Fault UInt64 :=
  match t with
  | .leaf _ (.int z) =>
    if z < 0 then .error (t.noConversion "an unsigned 64 bit or less integer")
    else .ok (UInt64.ofNat z.toNat)
  | .leaf _ (.float x) => .ok (UInt64.ofNat (x.roundToNat (Word.bound - 1)))
  | .leaf _ (.bool b) => .ok (naturalOfBool b)
  | .leaf _ (.text s) =>
    match truthOfText? s with
    | some b => .ok (naturalOfBool b)
    | none => (Text.natural? s).elim (.error (t.noConversion "an integer")) .ok
  | t => .error (t.noConversion "an integer")

def Tree.asText (t : Tree) : Except Fault String :=
  match t with
  | .leaf _ (.text s) => .ok s
  | .leaf _ (.int z) => .ok (toString z)
  | .leaf _ (.float x) => .ok x.plainText
  | .leaf _ (.bool b) => .ok (toString b)
  | t => .error (t.noConversion "a string")

end Layer

/-! ## Shapes -/

namespace Shape
open Layer

mutual

/-- Merged layers as a value of the shape. The fields of a record are read in their order. -/
def ofLayers : (s : Shape) → Tree → Except Fault s.Value
  | .unit, t =>
    match t with
    | .leaf _ .null => .ok ()
    | t => .error (.unfit (.wrongType t.found "unit"))
  | .text, t => t.asText
  | .natural, t => t.asNatural
  | .optional item, t =>
    match t with
    | .leaf _ .null => .ok none
    | t => (ofLayers item t).map some
  | .list item, t =>
    match t with
    | .array _ ts => ts.mapM (ofLayers item)
    | t => .error (.unfit (.wrongType t.found "a sequence"))
  | .record name fillsIn fields, t =>
    match t with
    | .table _ entries => fieldsOfLayers fields entries
    | .array _ ts => itemsOfLayers name fillsIn fields.length fields 0 ts
    | t => .error (.unfit (.wrongType t.found ("struct " ++ name)))
  | .choice cases, t =>
    match t with
    | .leaf _ (.text tag) =>
      match bareCase? cases tag with
      | some (some v) => .ok v
      | _ => .error (.unfit (.unknownTag tag (cases.map (·.1))))
    | t => .error (.unfit (.wrongType t.found "string or map"))

def fieldsOfLayers : (fields : List (String × Shape)) → Entries Tree → Except Fault (FieldValues fields)
  | [], _ => .ok ()
  | (name, s) :: fields, entries => do
    let x ← match entries.lookup name with
      | none => .ok none
      | some t => ((ofLayers s t).map some).mapError (Fault.below (.child name))
    let xs ← fieldsOfLayers fields entries
    .ok (x, xs)

/-- The fields of a record from an array, in their order. Further items are passed over. -/
def itemsOfLayers (name : String) (fillsIn : Bool) (total : Nat) :
    (fields : List (String × Shape)) → Nat → List Tree → Except Fault (FieldValues fields)
  | [], _, _ => .ok ()
  | (_, _) :: fields, n, [] =>
    if fillsIn then .ok (none, emptyFields fields)
    else .error (.unfit (.wrongLength n (wantedFields name total)))
  | (_, s) :: fields, n, t :: ts => do
    let x ← (ofLayers s t).mapError (Fault.below (.index n))
    let xs ← itemsOfLayers name fillsIn total fields (n + 1) ts
    .ok (some x, xs)

end

end Shape
end Dashboard
