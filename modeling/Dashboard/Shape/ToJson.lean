import Dashboard.Shape.Basic
import Dashboard.Json.Basic

/-! # Writing a value of a shape as JSON

* `Shape.toJson`: a value as JSON; the fields of a record stand in their order, and a missing field is left out.
-/

namespace Dashboard.Shape
set_option autoImplicit false

mutual

def toJson : (s : Shape) → s.Value → Json
  | .unit, _ => .null
  | .text, (s : String) => .text s
  | .natural, (n : UInt64) => .int n.toNat
  | .optional item, v =>
    match v with
    | none => .null
    | some v => toJson item v
  | .list item, (vs : List item.Value) => .array (vs.map (toJson item))
  | .record _ _ fields, v => .object (fieldsToJson fields v)
  | .choice cases, v => caseToJson cases v

def fieldsToJson : (fields : List (String × Shape)) → FieldValues fields → List (String × Json)
  | [], _ => []
  | (name, s) :: fields, (v, vs) =>
    match v with
    | none => fieldsToJson fields vs
    | some v => (name, toJson s v) :: fieldsToJson fields vs

/-- One alternative: its tag alone, or an object whose only member has the tag as its key. -/
def caseToJson : (cases : List (String × Shape)) → CaseValue cases → Json
  | [], v => nomatch v
  | (name, s) :: cases, v =>
    match v with
    | .inl v => if s.bare?.isSome then .text name else .object [(name, toJson s v)]
    | .inr v => caseToJson cases v

end

end Dashboard.Shape
