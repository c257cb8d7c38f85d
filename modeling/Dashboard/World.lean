import Dashboard.Board
import Dashboard.Gate
import Dashboard.Notice
import Dashboard.Setting.Responder
import Dashboard.Ticker

/-! # The world that producers act on

* `World`: the clock, the board, the gates, the settings, the sources and the journal.
* `Writer`: the only way from a producer to a slot.
* `World.put`: a write to the board, with its notice.
* `World.write`: a write through a writer; behind a closed gate it is discarded.
-/

namespace Dashboard
set_option autoImplicit false

/-- All that producers read and change. Times are in milliseconds. -/
structure World where
  now : Nat := 0
  board : Board := .empty
  latches : Latches := {}
  store : Setting.Store := {}
  responder : Setting.Responder := {}
  sources : List Source := []
  journal : Journal := []

structure Writer where
  slot : Slot
  gate : Gate
  deriving DecidableEq, Repr

namespace World

def note (n : Notice) (w : World) : World := { w with journal := (w.now, n) :: w.journal }

def rootGate (w : World) : Gate × World :=
  let (g, l) := w.latches.root
  (g, { w with latches := l })

def childGate (g : Gate) (w : World) : Gate × World :=
  let (c, l) := w.latches.child g
  (c, { w with latches := l })

def close (g : Gate) (w : World) : World := { w with latches := w.latches.close g }

def narrow (x : Writer) (w : World) : Writer × World :=
  let (g, w) := w.childGate x.gate
  (⟨x.slot, g⟩, w)

/-! ## Writing -/

/-- Writes to the board. Tells whether the board accepted the status. -/
def put (slot : Slot) (status : Status) (w : World) : Bool × World :=
  match w.board.set w.now slot status with
  | (true, b) => (true, { w with board := b }.note (.updated slot status))
  | (false, b) => (false, { w with board := b }.note (.refused status.kind slot))

/-- Writes through a writer. Behind a closed gate the status is discarded. -/
def write (x : Writer) (status : Status) (w : World) : Bool × World :=
  if w.latches.permits x.gate then w.put x.slot status else (false, w.note (.discarded x.slot))

/-! ## Settings and sources -/

def setSetting (k : Setting) (v : Option String) (w : World) : World :=
  { w with store := w.store.set k v }.note (.settingChanged k v)

def holdStore (w : World) : World := { w with store := w.store.hold }

def releaseStore (w : World) : World := { w with store := w.store.release }

def modifySource (i : Nat) (f : Source → Source) (w : World) : World :=
  { w with sources := w.sources.modify i f }

/-- A sample of a source begins. Gives the time it takes. -/
def beginSample (i : Nat) (w : World) : Nat × World :=
  match w.sources[i]? with
  | none => (0, w)
  | some s =>
    let w := w.modifySource i Source.begin
    (Ticker.pause s.latency, match s with
      | .remote _ address => w.note (.asked address)
      | _ => w)

/-- A sample of a source finishes. Gives its outcome. -/
def finishSample (i : Nat) (w : World) : Except Failure Status × World :=
  match w.sources[i]? with
  | none => (.error (.source "" "no source"), w)
  | some s =>
    let w := w.modifySource i Source.finish
    (s.outcome, match s with
      | .scripted t => w.note (.answered t.name t.reply)
      | _ => w)

end World
end Dashboard
