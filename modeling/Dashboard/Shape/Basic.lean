/-! # Shapes of data

A shape says how a value of the library is laid out in a data document, whatever the document's format. Each
format has one reader, structural on the shape.

* `Shape`: texts, natural numbers below `2 ^ 64`, optional values, lists, records and tagged alternatives.
* `Shape.Value`: the values of a shape.
* `Shape.emptyFields`: the fields of a record of which nothing is known.
* `Shape.bareCase?`: an alternative without a value.
-/

namespace Dashboard
set_option autoImplicit false

/-- How a value is laid out as data. In a record that `fillsIn`, a list of field values may end early. -/
inductive Shape where
  | unit
  | text
  | natural
  | optional (item : Shape)
  | list (item : Shape)
  | record (name : String) (fillsIn : Bool) (fields : List (String × Shape))
  | choice (cases : List (String × Shape))

namespace Shape

mutual

def Value : Shape → Type
  | .unit => Unit
  | .text => String
  | .natural => UInt64
  | .optional item => Option item.Value
  | .list item => List item.Value
  | .record _ _ fields => FieldValues fields
  | .choice cases => CaseValue cases

/-- The values of the fields of a record; each may be missing. -/
def FieldValues : List (String × Shape) → Type
  | [] => Unit
  | (_, s) :: fields => Option s.Value × FieldValues fields

def CaseValue : List (String × Shape) → Type
  | [] => Empty
  | (_, s) :: cases => s.Value ⊕ CaseValue cases

end

def emptyFields : (fields : List (String × Shape)) → FieldValues fields
  | [] => ()
  | (_, _) :: fields => (none, emptyFields fields)

def bare? : (s : Shape) → Option s.Value
  | .unit => some ()
  | _ => none

/-- The alternative that consists of a tag alone: `none` for an unknown tag, `some none` for one that carries a
value. -/
def bareCase? : (cases : List (String × Shape)) → String → Option (Option (CaseValue cases))
  | [], _ => none
  | (name, s) :: cases, tag =>
    if tag = name then some (s.bare?.map .inl) else (bareCase? cases tag).map (·.map .inr)

/-- What a reader of a list of `total` field values asks for, in words. -/
def wantedFields (name : String) (total : Nat) : String :=
  "struct " ++ name ++ " with " ++ toString total ++ (if total = 1 then " element" else " elements")

end Shape
end Dashboard
