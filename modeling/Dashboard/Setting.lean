import Dashboard.Slot

/-! # Settings

* `Setting`: the three settings that the dashboard follows, each with a slot of its own.
* `Setting.Snapshot`: the values of all three at one moment.
* `Setting.Snapshot.absent`: the settings without a value.
-/

namespace Dashboard
set_option autoImplicit false

inductive Setting where
  | scenariosDirectory
  | gridpathDatabase
  | pythonEnvironment
  deriving DecidableEq, Repr

namespace Setting

def all : List Setting := [scenariosDirectory, gridpathDatabase, pythonEnvironment]

def slot : Setting → Slot
  | .scenariosDirectory => .scenariosDirectory
  | .gridpathDatabase => .gridpathDatabase
  | .pythonEnvironment => .pythonEnvironment

def name (k : Setting) : String := k.slot.name

def describe (k : Setting) : String := k.slot.describe

def index (k : Setting) : Nat := all.idxOf k

def ofName? (name : String) : Option Setting := all.find? fun k => k.name = name

theorem kind_slot (k : Setting) : k.slot.kind = .label := by cases k <;> rfl

theorem slot_injective {a b : Setting} (h : a.slot = b.slot) : a = b := by
  revert h
  cases a <;> cases b <;> decide

def shape : Shape :=
  .choice [("scenarios_directory", .unit), ("gridpath_database", .unit), ("python_environment", .unit)]

def ofValue : shape.Value → Setting
  | .inl _ => .scenariosDirectory
  | .inr (.inl _) => .gridpathDatabase
  | .inr (.inr (.inl _)) => .pythonEnvironment

def ofText (t : String) : Except Json.Fault Setting := (shape.ofText t).map ofValue

def toJson (k : Setting) : Json := .text k.name

/-! ## Snapshots -/

structure Snapshot where
  scenariosDirectory : Option String := none
  gridpathDatabase : Option String := none
  pythonEnvironment : Option String := none
  deriving DecidableEq, Repr

namespace Snapshot

def get (s : Snapshot) : Setting → Option String
  | .scenariosDirectory => s.scenariosDirectory
  | .gridpathDatabase => s.gridpathDatabase
  | .pythonEnvironment => s.pythonEnvironment

def ofFunction (f : Setting → Option String) : Snapshot :=
  ⟨f .scenariosDirectory, f .gridpathDatabase, f .pythonEnvironment⟩

theorem get_ofFunction (f : Setting → Option String) (k : Setting) : (ofFunction f).get k = f k := by
  cases k <;> rfl

def absent (s : Snapshot) : List Setting := all.filter fun k => (s.get k).isNone

def shape : Shape :=
  .record "SettingsSnapshot" false
    [("scenarios_directory", .optional .text), ("gridpath_database", .optional .text),
      ("python_environment", .optional .text)]

def ofValue : shape.Value → Snapshot
  | (s, g, p, ()) => ⟨s.join, g.join, p.join⟩

/-- The data for a snapshot; a setting without a value is written as absent. -/
def toValue (s : Snapshot) : shape.Value :=
  (some s.scenariosDirectory, some s.gridpathDatabase, some s.pythonEnvironment, ())

theorem ofValue_toValue (s : Snapshot) : ofValue s.toValue = s := rfl

def ofText (t : String) : Except Json.Fault Snapshot := (shape.ofText t).map ofValue

def toJson (s : Snapshot) : Json := shape.toJson s.toValue

end Snapshot
end Setting
end Dashboard
