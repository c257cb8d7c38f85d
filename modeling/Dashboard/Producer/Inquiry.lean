import Dashboard.World

/-! # Inquiries

An inquiry asks once for a snapshot of the settings and reports those that are absent. It is given up when its gate
closes. Until its end it holds the settings.

* `Reconciler`: where an absent report goes.
* `Inquiry`: a gate, the reconcilers, and the time at which the answer comes.
* `Inquiry.step`: the next action; the answer yields the reconcilers whose settings are absent.
-/

namespace Dashboard
set_option autoImplicit false

/-- Where the report that a setting is absent goes: the relay of that number. -/
structure Reconciler where
  key : Setting
  relay : Nat
  deriving DecidableEq, Repr

/-- A request for a snapshot. Before it was made there is no time at which it resolves. -/
structure Inquiry where
  gate : Gate
  reconcilers : List Reconciler
  resolvesAt : Option Nat := none
  deriving DecidableEq, Repr

namespace Inquiry

def isReady (w : World) (p : Inquiry) : Bool :=
  match p.resolvesAt with
  | none => true
  | some t => w.latches.isClosed p.gate || t ≤ w.now

/-- An upper bound of the actions left at this moment, those of the relays that get a report included. -/
def load (p : Inquiry) : Nat := p.reconcilers.length + (if p.resolvesAt.isNone then 2 else 1)

/-- The reconcilers whose settings a snapshot reports absent. -/
def addressees (s : Setting.Snapshot) (rs : List Reconciler) : List Reconciler :=
  rs.filter fun r => (s.get r.key).isNone

def resolve (w : World) (p : Inquiry) : World × List Reconciler :=
  match w.responder.answer w.store with
  | .error failure => (w.note (.snapshotFailed failure), [])
  | .ok s => (if s.absent = [] then w else w.note (.settingsUnset s.absent), addressees s p.reconcilers)

def step (w : World) (p : Inquiry) : World × Option Inquiry × List Reconciler :=
  if w.latches.isClosed p.gate then ((w.note .snapshotCancelled).releaseStore, none, [])
  else
    match p.resolvesAt with
    | none =>
      ({ w with responder := w.responder.call },
        some { p with resolvesAt := some (w.now + Ticker.pause w.responder.latency) }, [])
    | some _ =>
      let (w, rs) := p.resolve w
      (w.releaseStore, none, rs)

end Inquiry
end Dashboard
