import Dashboard.Shape.Basic
import Dashboard.Toml.Basic

/-! # Reading a shape from a TOML value

Types are taken strictly: a number is no text, and a text is no number.

* `Shape.ofToml?`: a TOML value as a value of a shape.
-/

namespace Dashboard.Shape
set_option autoImplicit false

mutual

/-- A TOML value as a value of the shape. A date has parts, but none that a record asks for. -/
def ofToml? : (s : Shape) → Toml → Option s.Value
  | .unit, _ => none
  | .text, v =>
    match v with
    | .text s => some s
    | _ => none
  | .natural, v =>
    match v with
    | .int z => if z < 0 then none else some (UInt64.ofNat z.toNat)
    | _ => none
  | .optional item, v => (ofToml? item v).map some
  | .list item, v =>
    match v with
    | .array vs => vs.mapM (ofToml? item)
    | _ => none
  | .record _ fillsIn fields, v =>
    match v with
    | .table entries =>
      entries.foldlM (fun st e => (withMember? fields e.1 e.2 st).getD (some st)) (emptyFields fields)
    | .date _ => some (emptyFields fields)
    | .array vs => entriesInOrder? fillsIn fields vs
    | _ => none
  | .choice cases, v =>
    match v with
    | .text tag => (bareCase? cases tag).join
    | .table [(tag, v)] => (caseOfToml? cases tag v).join
    | _ => none

/-- The fields with the value of an entry, if the record has a field of that name. -/
def withMember? : (fields : List (String × Shape)) → String → Toml → FieldValues fields →
    Option (Option (FieldValues fields))
  | [], _, _, _ => none
  | (name, s) :: fields, key, v, (x, xs) =>
    if key = name then some ((ofToml? s v).map fun y => (some y, xs))
    else (withMember? fields key v xs).map (·.map fun ys => (x, ys))

/-- The values of the fields in their order. Further items are passed over. -/
def entriesInOrder? (fillsIn : Bool) :
    (fields : List (String × Shape)) → List Toml → Option (FieldValues fields)
  | [], _ => some ()
  | (_, _) :: fields, [] => if fillsIn then some (none, emptyFields fields) else none
  | (_, s) :: fields, v :: vs => do
    let x ← ofToml? s v
    let xs ← entriesInOrder? fillsIn fields vs
    some (some x, xs)

def caseOfToml? : (cases : List (String × Shape)) → String → Toml → Option (Option (CaseValue cases))
  | [], _, _ => none
  | (name, s) :: cases, tag, v =>
    if tag = name then some ((ofToml? s v).map .inl) else (caseOfToml? cases tag v).map (·.map .inr)

end

end Dashboard.Shape
