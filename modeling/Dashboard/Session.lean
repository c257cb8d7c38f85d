import Dashboard.System

/-! # Sessions

A session starts and ends all producers of the dashboard together. Everything that one activation starts writes through
gates behind the gate of the activation, so closing that gate ends all of it at once.

* `SamplerHandle`, `RelayHandle`: a producer that was started, and `stop` and `release` to end it.
* `System.startSampler`, `System.follow`: start a producer behind a gate of its own.
* `Session`, `Session.activate`, `Session.deactivate`, `Session.drop`: the life of a dashboard.
* `Session.take`, `System.retire`: the two halves of a deactivation.
-/

namespace Dashboard
set_option autoImplicit false

/-! ## Handles -/

structure SamplerHandle where
  name : String
  writer : Writer
  task : Nat
  deriving DecidableEq, Repr

structure RelayHandle where
  key : Setting
  writer : Writer
  task : Nat
  deriving DecidableEq, Repr

def RelayHandle.reconciler (h : RelayHandle) : Reconciler := ⟨h.key, h.task⟩

namespace System

/-- A producer is live while its gate is open and it has not come to its end. -/
def isLive (w : Writer) (task : Nat) (s : System) : Bool :=
  s.world.latches.isOpen w.gate && s.isAlive task

def narrow (w : Writer) (s : System) : Writer × System :=
  let (x, world) := s.world.narrow w
  (x, { s with world })

/-- Starts a sampler. A period of nothing is replaced by the shortest one. -/
def startSampler (source period : Nat) (fallback : Fallback) (writer : Writer) (s : System) :
    SamplerHandle × System :=
  let name := (s.world.sources[source]?.map Source.name).getD ""
  let s := if period = 0 then s.note (.zeroPeriod name) else s
  let period := Ticker.period period
  let s := s.note (.samplerStarts name writer.slot period)
  let (writer, s) := s.narrow writer
  let (task, s) := s.spawn (.sampler { name, source, period, fallback, writer })
  (⟨name, writer, task⟩, s)

/-- Starts a relay. It shows the value that the setting has when it first acts. -/
def follow (key : Setting) (writer : Writer) (s : System) : RelayHandle × System :=
  let s := s.note (.subscribes key)
  let seen := (s.world.store.channel key).version
  let (writer, s) := s.narrow writer
  let (task, s) := s.spawn (.relay { key, writer, seen })
  (⟨key, writer, task⟩, s)

def stop (h : SamplerHandle) (s : System) : System :=
  (s.note (.samplerStops h.name)).onWorld (World.close h.writer.gate)

def release (h : RelayHandle) (s : System) : System :=
  (s.note (.unsubscribes h.key)).onWorld (World.close h.writer.gate)

end System

/-! ## Sessions -/

structure Feed where
  source : Nat
  period : Nat
  deriving DecidableEq, Repr

structure Activation where
  gate : Gate
  samplers : List SamplerHandle
  relays : List RelayHandle
  inquiry : Nat
  deriving DecidableEq, Repr

/-- The dashboard: what it samples, and what its current activation started. -/
structure Session where
  server : Feed
  runStatus : Feed
  validationStatus : Feed
  activation : Option Activation := none
  deriving DecidableEq, Repr

namespace Session

def feeds (d : Session) : List (Slot × Feed) :=
  [(.server, d.server), (.runStatus, d.runStatus), (.validationStatus, d.validationStatus)]

def startSamplers (gate : Gate) : List (Slot × Feed) → System → List SamplerHandle × System
  | [], s => ([], s)
  | (slot, feed) :: rest, s =>
    let (h, s) := s.startSampler feed.source feed.period (.forSlot slot) ⟨slot, gate⟩
    let (hs, s) := startSamplers gate rest s
    (h :: hs, s)

def startRelays (gate : Gate) : List Setting → System → List RelayHandle × System
  | [], s => ([], s)
  | key :: rest, s =>
    let (h, s) := s.follow key ⟨key.slot, gate⟩
    let (hs, s) := startRelays gate rest s
    (h :: hs, s)

def start (d : Session) (s : System) : Activation × System :=
  let (gate, world) := s.world.rootGate
  let s := { s with world }.note .activates
  let (samplers, s) := startSamplers gate d.feeds s
  let (relays, s) := startRelays gate Setting.all s
  let s := s.onWorld World.holdStore
  let (inquiry, s) := s.spawn (.inquiry { gate, reconcilers := relays.map RelayHandle.reconciler })
  (⟨gate, samplers, relays, inquiry⟩, s)

/-- Activates the dashboard. Tells whether it was inactive; an active one stays as it is. -/
def activate (d : Session) (s : System) : Bool × Session × System :=
  match d.activation with
  | some _ => (false, d, s.note .alreadyActive)
  | none =>
    let (a, s) := d.start s
    (true, { d with activation := some a }, s)

/-- First half of a deactivation: the activation is taken out of the session. -/
def take (d : Session) : Option Activation × Session := (d.activation, { d with activation := none })

end Session

/-- Second half of a deactivation: the gate is closed, which ends all that the activation started. -/
def System.retire (a : Activation) (s : System) : System :=
  let s := s.onWorld (World.close a.gate)
  let s := a.samplers.foldl (fun s h => s.stop h) s
  let s := a.relays.foldl (fun s h => s.release h) s
  let s := if s.isAlive a.inquiry then s.note .snapshotPending else s
  s.note .deactivated

namespace Session

/-- Deactivates the dashboard. Tells whether it was active. -/
def deactivate (d : Session) (s : System) : Bool × Session × System :=
  match d.take with
  | (none, d) => (false, d, s.note .notActive)
  | (some a, d) => (true, d, s.retire a)

/-- Drops the session: an activation that it still has is ended without a word, and the settings are let go. -/
def drop (d : Session) (s : System) : System :=
  let s := match d.activation with
    | none => s
    | some a => s.onWorld (World.close a.gate)
  s.onWorld World.releaseStore

def isActive (d : Session) : Bool := d.activation.isSome

def liveHandles (d : Session) (s : System) : Nat :=
  match d.activation with
  | none => 0
  | some a =>
    (a.samplers.filter fun h => s.isLive h.writer h.task).length +
      (a.relays.filter fun h => s.isLive h.writer h.task).length

end Session
end Dashboard
