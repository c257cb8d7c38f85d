import Dashboard.Shape.OfText
import Dashboard.Shape.ToJson

/-! # Statuses

A status is what a slot of the dashboard shows: a label, or a table of cells.

* `Status`, `Status.Kind`: the statuses and their two kinds.
* `Status.up`, `Status.down`, `Status.notSet`: the labels with a meaning of their own.
* `Status.text`: the words on the dashboard; a table is shown by its number of rows.
* `Status.describe`: the form used in messages about statuses.
* `Status.shape`: the layout as data, with `Status.ofValue` and `Status.toValue`.
-/

namespace Dashboard
set_option autoImplicit false

inductive Status where
  | label (text : String)
  | table (rows : List (List String))
  deriving DecidableEq, Repr

namespace Status

/-- The kinds of status. A slot takes one of them only. -/
inductive Kind where
  | label
  | table
  deriving DecidableEq, Repr

def Kind.describe : Kind → String
  | .label => "Label"
  | .table => "Table"

def kind : Status → Kind
  | .label _ => .label
  | .table _ => .table

def up : Status := .label "up"

def down : Status := .label "down"

def notSet : Status := .label "not set"

def asLabel? : Status → Option String
  | .label t => some t
  | .table _ => none

def asTable? : Status → Option (List (List String))
  | .label _ => none
  | .table rows => some rows

def text : Status → String
  | .label t => t
  | .table [_] => "1 row"
  | .table rows => toString rows.length ++ " rows"

/-- The form used in messages: the kind, and the content with its texts quoted. -/
def describe : Status → String
  | .label t => "Label(" ++ Text.quoted t ++ ")"
  | .table rows => "Table(" ++ Text.bracketed (rows.map Text.quotedList) ++ ")"

theorem kind_label (t : String) : (label t).kind = .label := rfl

theorem kind_table (rows : List (List String)) : (table rows).kind = .table := rfl

/-! ## As data -/

def shape : Shape := .choice [("label", .text), ("table", .list (.list .text))]

def ofValue : shape.Value → Status
  | .inl t => .label t
  | .inr (.inl rows) => .table rows

def toValue : Status → shape.Value
  | .label t => .inl t
  | .table rows => .inr (.inl rows)

theorem ofValue_toValue (s : Status) : ofValue s.toValue = s := by cases s <;> rfl

def ofText (t : String) : Except Json.Fault Status := (shape.ofText t).map ofValue

def toJson (s : Status) : Json := shape.toJson s.toValue

end Status
end Dashboard
