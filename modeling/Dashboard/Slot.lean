import Dashboard.Status

/-! # The slots of the dashboard

* `Slot`: the six things that the dashboard watches.
* `Slot.all`: the slots in the order in which they are shown.
* `Slot.name`, `Slot.ofName?`: names and back.
* `Slot.kind`: the kind of status that a slot takes.
-/

namespace Dashboard
set_option autoImplicit false

inductive Slot where
  | server
  | runStatus
  | validationStatus
  | scenariosDirectory
  | gridpathDatabase
  | pythonEnvironment
  deriving DecidableEq, Repr

namespace Slot

def all : List Slot :=
  [server, runStatus, validationStatus, scenariosDirectory, gridpathDatabase, pythonEnvironment]

def name : Slot → String
  | .server => "server"
  | .runStatus => "run_status"
  | .validationStatus => "validation_status"
  | .scenariosDirectory => "scenarios_directory"
  | .gridpathDatabase => "gridpath_database"
  | .pythonEnvironment => "python_environment"

def describe : Slot → String
  | .server => "Server"
  | .runStatus => "RunStatus"
  | .validationStatus => "ValidationStatus"
  | .scenariosDirectory => "ScenariosDirectory"
  | .gridpathDatabase => "GridpathDatabase"
  | .pythonEnvironment => "PythonEnvironment"

def index (s : Slot) : Nat := all.idxOf s

def ofName? (name : String) : Option Slot := all.find? fun s => s.name = name

def unknownMessage (name : String) : String := "unknown status slot '" ++ name ++ "'"

def kind : Slot → Status.Kind
  | .runStatus | .validationStatus => .table
  | _ => .label

theorem mem_all (s : Slot) : s ∈ all := by cases s <;> decide

theorem name_injective {a b : Slot} (h : a.name = b.name) : a = b := by
  revert h
  cases a <;> cases b <;> decide

/-! ## As data -/

def shape : Shape :=
  .choice [("server", .unit), ("run_status", .unit), ("validation_status", .unit),
    ("scenarios_directory", .unit), ("gridpath_database", .unit), ("python_environment", .unit)]

def ofValue : shape.Value → Slot
  | .inl _ => .server
  | .inr (.inl _) => .runStatus
  | .inr (.inr (.inl _)) => .validationStatus
  | .inr (.inr (.inr (.inl _))) => .scenariosDirectory
  | .inr (.inr (.inr (.inr (.inl _)))) => .gridpathDatabase
  | .inr (.inr (.inr (.inr (.inr (.inl _))))) => .pythonEnvironment

def ofText (t : String) : Except Json.Fault Slot := (shape.ofText t).map ofValue

def toJson (s : Slot) : Json := .text s.name

end Slot
end Dashboard
