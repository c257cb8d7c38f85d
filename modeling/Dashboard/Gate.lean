/-! # Gates

A gate lets writes through until it is closed. Gates form a forest: a child is behind its parent, and closing a gate
also shuts all gates behind it, whenever they were made.

* `Gate`: a latch of its own, the latches above it, and the activation it belongs to.
* `Latches`: which latches were made and which are shut.
* `Latches.root`, `Latches.child`, `Latches.close`: the three operations.
* `Latches.isOpen`, `Latches.permits`, `Latches.isClosed`: three ways to ask: from the gate upwards, from the root
  downwards, and whether a closing has reached the gate.
-/

namespace Dashboard
set_option autoImplicit false

/-- A gate: its own latch, the latches above it from the nearest to the root's, and the activation it belongs to. -/
structure Gate where
  latch : Nat
  above : List Nat
  activation : Nat
  deriving DecidableEq, Repr

def Gate.latches (g : Gate) : List Nat := g.latch :: g.above

/-- The latches made so far, numbered from zero, and those that were shut. -/
structure Latches where
  made : Nat := 0
  shut : List Nat := []
  deriving DecidableEq, Repr

namespace Latches

/-- A new gate with no gate above it. It begins an activation. -/
def root (l : Latches) : Gate × Latches :=
  (⟨l.made, [], l.made⟩, { l with made := l.made + 1 })

def child (g : Gate) (l : Latches) : Gate × Latches :=
  (⟨l.made, g.latches, g.activation⟩, { l with made := l.made + 1 })

def close (g : Gate) (l : Latches) : Latches := { l with shut := g.latch :: l.shut }

def isShut (l : Latches) (n : Nat) : Bool := l.shut.contains n

/-- Whether all of these latches are unshut, asked one after the other. -/
def allUnshut (l : Latches) : List Nat → Bool
  | [] => true
  | n :: rest => !l.isShut n && allUnshut l rest

def isOpen (l : Latches) (g : Gate) : Bool := l.allUnshut g.latches

def permits (l : Latches) (g : Gate) : Bool := l.allUnshut g.latches.reverse

def isClosed (l : Latches) (g : Gate) : Bool := g.latches.any l.isShut

theorem allUnshut_eq_all (l : Latches) (ns : List Nat) :
    l.allUnshut ns = ns.all fun n => !l.isShut n := by
  induction ns with
  | nil => rfl
  | cons n ns ih => simp [allUnshut, ih]

theorem isOpen_eq_all (l : Latches) (g : Gate) :
    l.isOpen g = g.latches.all fun n => !l.isShut n := l.allUnshut_eq_all _

end Latches
end Dashboard
