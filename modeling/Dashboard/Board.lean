import Dashboard.Slot.Map

/-! # The board

The board holds the latest status of every slot. A write either is refused or counts once for its slot and once
for the board.

* `Tracked`: the latest status of one slot, when it was written, and how many writes were accepted.
* `Board.store`, `Board.publish`: the two halves of an accepted write.
* `Board.set`: a write, and whether it was accepted.
-/

namespace Dashboard
set_option autoImplicit false

/-- The latest status of one slot. Until the first write it is pending. The number of writes has no bound here: it stands
for a word of 64 bits that is meant to count fewer than 2 ^ 64 of them. -/
structure Tracked where
  current : Option Status := none
  updatedAt : Option Nat := none
  updates : Nat := 0
  deriving DecidableEq, Repr

namespace Tracked

def isPending (t : Tracked) : Bool := t.current.isNone

def written (now : Nat) (status : Status) (t : Tracked) : Tracked :=
  ⟨some status, some now, t.updates + 1⟩

end Tracked

/-- The latest status of every slot, and the number of accepted writes, again of fewer than 2 ^ 64. -/
structure Board where
  slots : Slot.Map Tracked := .const {}
  revision : Nat := 0
  deriving DecidableEq, Repr

namespace Board

def empty : Board := {}

def tracked (b : Board) (slot : Slot) : Tracked := b.slots.get slot

def get (b : Board) (slot : Slot) : Option Status := (b.tracked slot).current

def store (now : Nat) (slot : Slot) (status : Status) (b : Board) : Board :=
  { b with slots := b.slots.set slot ((b.tracked slot).written now status) }

def publish (b : Board) : Board := { b with revision := b.revision + 1 }

def accepts (slot : Slot) (status : Status) : Bool := status.kind = slot.kind

/-- Writes a status into a slot. A refused write changes nothing. -/
def set (now : Nat) (slot : Slot) (status : Status) (b : Board) : Bool × Board :=
  if accepts slot status then (true, (b.store now slot status).publish) else (false, b)

/-- The number of accepted writes, counted slot by slot. -/
def totalUpdates (b : Board) : Nat := (Slot.all.map fun s => (b.tracked s).updates).foldr (· + ·) 0

@[simp] theorem tracked_publish (b : Board) (slot : Slot) : b.publish.tracked slot = b.tracked slot :=
  rfl

@[simp] theorem tracked_store_self (now : Nat) (slot : Slot) (status : Status) (b : Board) :
    (b.store now slot status).tracked slot = (b.tracked slot).written now status := by
  simp [tracked, store]

theorem tracked_store_ne (now : Nat) {slot other : Slot} (status : Status) (b : Board)
    (h : other ≠ slot) : (b.store now slot status).tracked other = b.tracked other := by
  simp [tracked, store, Slot.Map.get_set_ne _ _ h]

end Board
end Dashboard
