import Dashboard.Board

/-! # Views of the board

* `Board.View`: the revision and all slots in their order, at one moment.
* `Board.View.text`: the lines shown to a reader.
-/

namespace Dashboard.Board
set_option autoImplicit false

structure View where
  revision : Nat
  slots : List (Slot × Tracked)
  deriving DecidableEq, Repr

def view (b : Board) : View := ⟨b.revision, Slot.all.map fun s => (s, b.tracked s)⟩

namespace View

def get (v : View) (slot : Slot) : Option Status :=
  (v.slots.find? fun e => e.1 = slot).bind fun e => e.2.current

def pendingCount (v : View) : Nat := (v.slots.filter fun e => e.2.isPending).length

def padRight (width : Nat) (s : String) : String :=
  s ++ String.ofList (List.replicate (width - s.length) ' ')

def words (t : Tracked) : String := (t.current.map Status.text).getD "pending"

def line (e : Slot × Tracked) : String := "  " ++ padRight 20 e.1.name ++ " " ++ words e.2

/-- The lines of the view: the revision, then one line for each slot. -/
def lines (v : View) : List String := ("revision " ++ toString v.revision) :: v.slots.map line

def text (v : View) : String := String.join (v.lines.map (· ++ "\n"))

end View
end Dashboard.Board
