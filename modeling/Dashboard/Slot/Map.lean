import Dashboard.Slot

/-! # One entry for each slot

* `Slot.Map`: six entries.
* `Slot.Map.get`, `Slot.Map.set`: an entry, and the entries with one replaced.
-/

namespace Dashboard.Slot
set_option autoImplicit false

structure Map (α : Type) where
  server : α
  runStatus : α
  validationStatus : α
  scenariosDirectory : α
  gridpathDatabase : α
  pythonEnvironment : α
  deriving DecidableEq, Repr

namespace Map
variable {α : Type}

def const (a : α) : Map α := ⟨a, a, a, a, a, a⟩

def get (m : Map α) : Slot → α
  | .server => m.server
  | .runStatus => m.runStatus
  | .validationStatus => m.validationStatus
  | .scenariosDirectory => m.scenariosDirectory
  | .gridpathDatabase => m.gridpathDatabase
  | .pythonEnvironment => m.pythonEnvironment

def set (m : Map α) (s : Slot) (a : α) : Map α :=
  match s with
  | .server => { m with server := a }
  | .runStatus => { m with runStatus := a }
  | .validationStatus => { m with validationStatus := a }
  | .scenariosDirectory => { m with scenariosDirectory := a }
  | .gridpathDatabase => { m with gridpathDatabase := a }
  | .pythonEnvironment => { m with pythonEnvironment := a }

@[simp] theorem get_const (a : α) (s : Slot) : (const a).get s = a := by cases s <;> rfl

@[simp] theorem get_set_self (m : Map α) (s : Slot) (a : α) : (m.set s a).get s = a := by
  cases s <;> rfl

theorem get_set_ne (m : Map α) {s t : Slot} (a : α) (h : t ≠ s) : (m.set s a).get t = m.get t := by
  revert h
  cases s <;> cases t <;> simp [set, get]

end Map
end Dashboard.Slot
