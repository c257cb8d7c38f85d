import Dashboard.World

/-! # Relays

A relay follows one setting and shows its value in the slot of the setting. A value that was never there is told from one
that is not known yet by a snapshot: only once a snapshot reports the setting absent, or its value is cleared, the slot
says so.

* `Relay`: a setting, a writer, the version last seen, and the absent reports waiting for it.
* `Relay.push`, `Relay.absent`: what a value and an absent report do.
* `Relay.isReady`, `Relay.step`: whether the relay can act, and its next action: closing first, then values, then reports.
-/

namespace Dashboard
set_option autoImplicit false

/-- A producer that follows a setting. `hasValue` tells whether the last value it showed was one. -/
structure Relay where
  key : Setting
  writer : Writer
  seen : Nat
  started : Bool := false
  watching : Bool := true
  hasValue : Bool := false
  reports : Nat := 0
  deriving DecidableEq, Repr

namespace Relay

def hasNews (w : World) (p : Relay) : Bool :=
  p.watching && (w.store.channel p.key).version != p.seen

/-- The store is gone, and the relay does not know it yet. -/
def hasLost (w : World) (p : Relay) : Bool := p.watching && !w.store.isOpen

def isReady (w : World) (p : Relay) : Bool :=
  !p.started || w.latches.isClosed p.writer.gate || p.hasNews w || p.hasLost w || 0 < p.reports

def load (w : World) (p : Relay) : Nat :=
  p.reports + (if p.started then 1 else 4) + (if p.hasNews w then 1 else 0) +
    (if p.watching then 1 else 0)

/-- What a value of the setting does. A missing value is shown only after one was there. -/
def push (value : Option String) (w : World) (p : Relay) : World × Relay :=
  match value with
  | some v => (((w.note (.pushed p.key v)).write p.writer (.label v)).2, { p with hasValue := true })
  | none =>
    if p.hasValue then
      (((w.note (.cleared p.key)).write p.writer .notSet).2, { p with hasValue := false })
    else (w.note (.noValueYet p.key), p)

def absent (w : World) (p : Relay) : World :=
  if p.hasValue then w.note (.absentIgnored p.key)
  else ((w.note (.absentReported p.key)).write p.writer .notSet).2

def catchUp (w : World) (p : Relay) : World × Relay :=
  let c := w.store.channel p.key
  push c.value w { p with seen := c.version, started := true }

def step (w : World) (p : Relay) : World × Option Relay :=
  if !p.started then
    let (w, p) := p.catchUp w
    (w, some p)
  else if w.latches.isClosed p.writer.gate then (w.note (.relayStopped p.key), none)
  else if p.hasNews w then
    let (w, p) := p.catchUp w
    (w, some p)
  else if p.hasLost w then (w.note (.channelClosed p.key), some { p with watching := false })
  else if 0 < p.reports then (p.absent w, some { p with reports := p.reports - 1 })
  else (w, some p)

end Relay
end Dashboard
