import Dashboard.Board.View

/-! # The console

The console follows the revision of the board. When the revision is not the one it saw last, the view is due, and it shows
the view that the board has at that moment.

* `Console`: the revision seen last, and the views shown so far.
* `Console.notice`, `Console.print`: the two halves of following a change.
* `Console.refresh`, `Console.close`: a change followed at once, and the last view.
-/

namespace Dashboard
set_option autoImplicit false

structure Console where
  seen : Nat
  isDue : Bool := false
  shown : List Board.View := []
  deriving DecidableEq, Repr

namespace Console

/-- A console that begins to follow a board. What is on the board already counts as seen. -/
def watch (b : Board) : Console := { seen := b.revision }

def notice (b : Board) (c : Console) : Console :=
  if b.revision = c.seen then c else { c with seen := b.revision, isDue := true }

def print (b : Board) (c : Console) : Console :=
  if c.isDue then { c with isDue := false, shown := c.shown ++ [b.view] } else c

def refresh (b : Board) (c : Console) : Console := (c.notice b).print b

def close (b : Board) (c : Console) : Console := { c with shown := c.shown ++ [b.view] }

end Console
end Dashboard
