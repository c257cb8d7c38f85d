import Dashboard.Shape.Basic
import Dashboard.Shape.Mismatch
import Dashboard.Json.Basic

/-! # Reading a shape from a JSON value

The value is at hand as a whole, so a mismatch has no place in a text.

* `Json.found`: what a value is, in words.
* `Shape.ofJson`: a JSON value as a value of a shape.
-/

namespace Dashboard
set_option autoImplicit false

def Json.found : Json → Found
  | .null => .absent
  | .bool b => .boolean b
  | .int z => .integer z
  | .float x => .float x
  | .text s => .text s
  | .array _ => .list
  | .object _ => .table

namespace Shape

mutual

def ofJson : (s : Shape) → Json → Except Mismatch s.Value
  | .unit, v =>
    match v with
    | .null => .ok ()
    | v => .error (.wrongType v.found "unit")
  | .text, v =>
    match v with
    | .text s => .ok s
    | v => .error (.wrongType v.found "a string")
  | .natural, v =>
    match v with
    | .int z => if z < 0 then .error (.wrongValue (.integer z) "u64") else .ok (UInt64.ofNat z.toNat)
    | v => .error (.wrongType v.found "u64")
  | .optional item, v =>
    match v with
    | .null => .ok none
    | v => (ofJson item v).map some
  | .list item, v =>
    match v with
    | .array vs => vs.mapM (ofJson item)
    | v => .error (.wrongType v.found "a sequence")
  | .record name fillsIn fields, v =>
    match v with
    | .array vs => do
      let r ← inOrder name fillsIn fields.length fields 0 vs
      if fields.length < vs.length then
        .error (.wrongLength vs.length "fewer elements in array")
      else .ok r
    | .object members =>
      members.foldlM (fun st m => (withMember fields m.1 m.2 st).getD (.ok st)) (emptyFields fields)
    | v => .error (.wrongType v.found ("struct " ++ name))
  | .choice cases, v =>
    match v with
    | .object [(tag, v)] =>
      (caseOf cases tag v).getD (.error (.unknownTag tag (cases.map (·.1))))
    | .object _ => .error (.wrongValue .table "map with a single key")
    | .text tag =>
      match bareCase? cases tag with
      | some (some v) => .ok v
      | some none => .error (.wrongType .bareTag "newtype variant")
      | none => .error (.unknownTag tag (cases.map (·.1)))
    | v => .error (.wrongType v.found "string or map")

/-- The fields with the value of a member, if the record has a field of that name. -/
def withMember : (fields : List (String × Shape)) → String → Json → FieldValues fields →
    Option (Except Mismatch (FieldValues fields))
  | [], _, _, _ => none
  | (name, s) :: fields, key, v, (x, xs) =>
    if key = name then some ((ofJson s v).map fun y => (some y, xs))
    else (withMember fields key v xs).map (·.map fun ys => (x, ys))

def inOrder (name : String) (fillsIn : Bool) (total : Nat) :
    (fields : List (String × Shape)) → Nat → List Json → Except Mismatch (FieldValues fields)
  | [], _, _ => .ok ()
  | (_, _) :: fields, n, [] =>
    if fillsIn then .ok (none, emptyFields fields)
    else .error (.wrongLength n (wantedFields name total))
  | (_, s) :: fields, n, v :: vs => do
    let x ← ofJson s v
    let xs ← inOrder name fillsIn total fields (n + 1) vs
    .ok (some x, xs)

def caseOf : (cases : List (String × Shape)) → String → Json →
    Option (Except Mismatch (CaseValue cases))
  | [], _, _ => none
  | (name, s) :: cases, tag, v =>
    if tag = name then some ((ofJson s v).map .inl) else (caseOf cases tag v).map (·.map .inr)

end

end Shape
end Dashboard
