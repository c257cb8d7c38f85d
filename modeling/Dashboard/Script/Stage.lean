import Dashboard.Script.Step

/-! # Playing a script

* `Stage`: the system and the named objects of a script. The script holds the settings until it drops them.
* `Stage.play`: one step and its answer. A step about an unknown name does nothing.
-/

namespace Dashboard.Script
set_option autoImplicit false

abbrev Names (α : Type) := List (String × α)

structure Stage where
  system : System := {}
  sources : Names Nat := []
  gates : Names Gate := []
  writers : Names Writer := []
  samplers : Names SamplerHandle := []
  relays : Names RelayHandle := []
  sessions : Names Session := []
  watchers : Names Nat := []
  activations : List Nat := []
  holdsStore : Bool := true

namespace Stage

def ofSettings (s : Setting.Snapshot) : Stage :=
  { system := { world := { store := .ofSnapshot s } } }

def onWorld (f : World → World) (g : Stage) : Stage := { g with system := g.system.onWorld f }

def addSource (id : String) (source : Source) (g : Stage) : Stage :=
  { g with
    sources := (id, g.system.world.sources.length) :: g.sources
    system := g.system.onWorld fun w => { w with sources := w.sources ++ [source] } }

/-- Adds a session, which holds the settings. The addresses of a server become sources of its own. -/
def addSession (id : String) (plan : Plan) (g : Stage) : Stage :=
  let g := g.onWorld World.holdStore
  match plan with
  | .named server run validation p =>
    let number (name : String) : Nat := (g.sources.lookup name).getD 0
    let session := p.session (number server) (number run) (number validation)
    { g with sessions := (id, session) :: g.sessions }
  | .remote server p =>
    let n := g.system.world.sources.length
    { g.onWorld fun w => { w with sources := w.sources ++ server.sources } with
      sessions := (id, p.session n (n + 1) (n + 2)) :: g.sessions }

def putSession (id : String) (d : Session) (s : System) (g : Stage) : Stage :=
  { g with sessions := (id, d) :: g.sessions.filter (·.1 != id), system := s }

def dropSession (id : String) (g : Stage) : Stage :=
  match g.sessions.lookup id with
  | none => g
  | some d => { g with sessions := g.sessions.filter (·.1 != id), system := d.drop g.system }

def script (id : String) (f : Scripted → Scripted) (g : Stage) : Stage :=
  match g.sources.lookup id with
  | none => g
  | some i => g.onWorld fun w => w.modifySource i fun
    | .scripted s => .scripted (f s)
    | other => other

def wait (ms : Nat) (g : Stage) : Stage := { g with system := g.system.wait ms }

def nameWriter (id : String) (w : Writer) (g : Stage) : Stage :=
  { g with writers := (id, w) :: g.writers, gates := (id, w.gate) :: g.gates }

/-! ## Steps that take time -/

/-- Samples a source. A sample that takes longer than its timeout is abandoned. -/
def sample (i : Nat) (timeout : Option Nat) (g : Stage) : Answer × Stage :=
  let (latency, w) := g.system.world.beginSample i
  let g := g.onWorld fun _ => w
  match timeout.filter (· < latency) with
  | some t => (.timedOut, (g.wait t).onWorld (World.modifySource i Source.abandon))
  | none =>
    let g := g.wait latency
    let (outcome, w) := g.system.world.finishSample i
    let g := g.onWorld fun _ => w
    match outcome with
    | .ok status => (.sampled ((w.sources[i]?.map Source.name).getD "") status, g)
    | .error failure => (.failed failure, g)

def snapshot (g : Stage) : Answer × Stage :=
  let latency := g.system.world.responder.latency
  let g := g.onWorld fun w => { w with responder := w.responder.call }
  let g := g.wait latency
  match g.system.world.responder.answer g.system.world.store with
  | .ok s => (.snapshot s, g)
  | .error failure => (.failed failure, g)

/-! ## All steps -/

def tell (g : Stage) (a : Answer) : Answer × Stage := (a, g)

def withName {α : Type} (g : Stage) (names : Names α) (id : String) (f : α → Answer × Stage) :
    Answer × Stage :=
  match names.lookup id with
  | none => (.nothing, g)
  | some a => f a

def play (g : Stage) : Step → Answer × Stage
  | .wait ms =>
    let g := g.wait ms
    (.count g.system.world.now, g)
  | .set slot status =>
    let (b, w) := g.system.world.put slot status
    (.flag b, g.onWorld fun _ => w)
  | .get slot => g.tell (.status (g.system.world.board.get slot))
  | .viewGet slot => g.tell (.status (g.system.world.board.view.get slot))
  | .tracked slot => g.tell (.tracked slot (g.system.world.board.tracked slot))
  | .view => g.tell (.view g.system.world.board.view)
  | .watchRevision id =>
    (.nothing, { g with watchers := (id, g.system.world.board.revision) :: g.watchers })
  | .pollRevision id =>
    let revision := g.system.world.board.revision
    g.withName g.watchers id fun seen =>
      (.revision (revision != seen) revision,
        { g with watchers := (id, revision) :: g.watchers.filter (·.1 != id) })
  | .source id definition => (.nothing, g.addSource id definition)
  | .respond id reply => (.nothing, g.script id (Scripted.respond reply))
  | .enqueue id reply => (.nothing, g.script id (Scripted.enqueue reply))
  | .latency id ms => (.nothing, g.script id (Scripted.delay ms))
  | .counters id =>
    g.withName g.sources id fun i =>
      match g.system.world.sources[i]? with
      | some (.scripted s) => (.counters s, g)
      | _ => (.nothing, g)
  | .sample id timeout => g.withName g.sources id fun i => g.sample i timeout
  | .setting key value => (.nothing, if g.holdsStore then g.onWorld (World.setSetting key value) else g)
  | .settingGet key => g.tell (.value (g.system.world.store.get key))
  | .followers => g.tell (.counts (Setting.all.map g.system.followers))
  | .snapshotReply value =>
    (.nothing, g.onWorld fun w => { w with responder := { w.responder with fixed := value } })
  | .snapshotLatency ms =>
    (.nothing, g.onWorld fun w => { w with responder := { w.responder with latency := ms } })
  | .snapshotError message =>
    (.nothing, g.onWorld fun w => { w with responder := { w.responder with fault := message } })
  | .snapshotCalls => g.tell (.count g.system.world.responder.calls)
  | .snapshot => g.snapshot
  | .dropStore =>
    (.nothing, if g.holdsStore then { g.onWorld World.releaseStore with holdsStore := false } else g)
  | .gate id parent =>
    let (x, w) := match parent.bind (List.lookup · g.gates) with
      | none => g.system.world.rootGate
      | some p => g.system.world.childGate p
    (.nothing, { g.onWorld fun _ => w with gates := (id, x) :: g.gates })
  | .gateClose id => g.withName g.gates id fun x => (.nothing, g.onWorld (World.close x))
  | .gateOpen id => g.withName g.gates id fun x => (.flag (g.system.world.latches.isOpen x), g)
  | .gateClosed id => g.withName g.gates id fun x => (.flag (g.system.world.latches.isClosed x), g)
  | .gateSame id other =>
    g.withName g.gates id fun x => g.withName g.gates other fun y =>
      (.flag (x.activation == y.activation), g)
  | .writer id slot gate =>
    g.withName g.gates gate fun x => (.text slot.name, g.nameWriter id ⟨slot, x⟩)
  | .narrowWriter id parent =>
    g.withName g.writers parent fun x =>
      let (y, s) := g.system.narrow x
      (.text y.slot.name, { g with system := s }.nameWriter id y)
  | .write id status =>
    g.withName g.writers id fun x =>
      let (b, w) := g.system.world.write x status
      (.flag b, g.onWorld fun _ => w)
  | .sampler id source period fallback writer =>
    g.withName g.sources source fun i => g.withName g.writers writer fun x =>
      let (h, s) := g.system.startSampler i period fallback x
      (.text h.name, { g with samplers := (id, h) :: g.samplers, system := s })
  | .samplerLive id =>
    g.withName g.samplers id fun h => (.flag (g.system.isLive h.writer h.task), g)
  | .samplerStop id =>
    g.withName g.samplers id fun h => (.nothing, { g with system := g.system.stop h })
  | .relay id key writer =>
    g.withName g.writers writer fun x =>
      let (h, s) := g.system.follow key x
      (.text key.name, { g with relays := (id, h) :: g.relays, system := s })
  | .relayLive id =>
    g.withName g.relays id fun h => (.flag (g.system.isLive h.writer h.task), g)
  | .release id =>
    g.withName g.relays id fun h => (.nothing, { g with system := g.system.release h })
  | .reconcile id snapshot =>
    g.withName g.relays id fun h =>
      (.text h.key.name, { g with system := g.system.reconcile snapshot h.reconciler })
  | .session id plan => (.nothing, (g.dropSession id).addSession id plan)
  | .activate id =>
    g.withName g.sessions id fun d =>
      let (b, d, s) := d.activate g.system
      (.flag b, g.putSession id d s)
  | .deactivate id =>
    g.withName g.sessions id fun d =>
      let (b, d, s) := d.deactivate g.system
      (.flag b, g.putSession id d s)
  | .state id => g.withName g.sessions id fun d => (.state d.isActive (d.liveHandles g.system), g)
  | .activation id =>
    g.withName g.sessions id fun d =>
      match d.activation with
      | none => (.activation .none, g)
      | some a =>
        let n := a.gate.activation
        if g.activations.contains n then (.activation .seen, g)
        else (.activation .new, { g with activations := n :: g.activations })
  | .dropSession id => (.nothing, g.dropSession id)

def clearJournal (g : Stage) : Stage := g.onWorld fun w => { w with journal := [] }

end Stage
end Dashboard.Script
