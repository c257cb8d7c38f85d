import Dashboard.Producer.Sampler
import Dashboard.Producer.Relay
import Dashboard.Producer.Inquiry

/-! # Producers at work

Producers that can act stand in line in the order in which they became able to. The first one acts until it comes to rest,
then the next. Those at rest stand in the order in which they came to rest, and in this order they wake when the same
moment lets several of them act. When all are at rest, time goes on to the next moment at which one can act.

* `Producer`, `Task`, `System`: a producer, one with its number, and the world with the producers in order.
* `System.rouse`: the producers that can act again join the line.
* `System.spawn`, `System.send`, `System.reconcile`: a new producer; an absent report; what a snapshot says to a relay.
* `System.act`: one action of one producer, in any order that a caller likes.
* `System.actWith`: the same with either kind of sums; a sampler that breaks off is gone, and its gate stays as it was.
* `System.settle`: actions until all producers rest.
* `System.waitWith`, `System.wait`: time passes, and producers act when they can.
-/

namespace Dashboard
set_option autoImplicit false

inductive Producer where
  | sampler (p : Sampler)
  | relay (p : Relay)
  | inquiry (p : Inquiry)
  deriving DecidableEq, Repr

namespace Producer

def isReady (w : World) : Producer → Bool
  | .sampler p => p.isReady w
  | .relay p => p.isReady w
  | .inquiry p => p.isReady w

/-- The time at which the producer can act if nothing else happens. -/
def dueAt? : Producer → Option Nat
  | .sampler p => p.dueAt?
  | .relay _ => none
  | .inquiry p => p.resolvesAt

def load (w : World) : Producer → Nat
  | .sampler p => p.load w
  | .relay p => p.load w
  | .inquiry p => p.load

/-- The next action: the world after it, the producer unless it has come to its end, and the reconcilers to which it
reports. -/
def step (w : World) : Producer → World × Option Producer × List Reconciler
  | .sampler p =>
    let (w, p) := p.step w
    (w, p.map .sampler, [])
  | .relay p =>
    let (w, p) := p.step w
    (w, p.map .relay, [])
  | .inquiry p =>
    let (w, p, rs) := p.step w
    (w, p.map .inquiry, rs)

def withReport : Producer → Producer
  | .relay p => .relay { p with reports := p.reports + 1 }
  | other => other

def follows (k : Setting) : Producer → Bool
  | .relay p => p.key == k
  | _ => false

end Producer

structure Task where
  id : Nat
  producer : Producer
  deriving DecidableEq, Repr

structure System where
  world : World := {}
  awake : List Task := []
  resting : List Task := []
  nextId : Nat := 0

namespace System

def tasks (s : System) : List Task := s.awake ++ s.resting

def rouse (s : System) : System :=
  let canAct (t : Task) : Bool := t.producer.isReady s.world
  { s with awake := s.awake ++ s.resting.filter canAct, resting := s.resting.filter fun t => !canAct t }

@[simp] theorem world_rouse (s : System) : s.rouse.world = s.world := rfl

theorem mem_tasks_rouse (s : System) (t : Task) : t ∈ s.rouse.tasks ↔ t ∈ s.tasks := by
  cases h : t.producer.isReady s.world <;> simp [rouse, tasks, h]

/-- Changes the world, which wakes the producers that can act in it. -/
def onWorld (f : World → World) (s : System) : System := rouse { s with world := f s.world }

def note (n : Notice) (s : System) : System := { s with world := s.world.note n }

def isAlive (i : Nat) (s : System) : Bool := s.tasks.any (·.id == i)

/-- A new producer. It can act at once. -/
def spawn (p : Producer) (s : System) : Nat × System :=
  (s.nextId, { s with awake := s.awake ++ [⟨s.nextId, p⟩], nextId := s.nextId + 1 })

def followers (k : Setting) (s : System) : Nat :=
  (s.tasks.filter fun t => t.producer.follows k).length

/-! ## Reports -/

def send (s : System) (r : Reconciler) : System :=
  let deliver (t : Task) : Task := if t.id = r.relay then { t with producer := t.producer.withReport } else t
  if s.isAlive r.relay then
    rouse { s with awake := s.awake.map deliver, resting := s.resting.map deliver }
  else s.note (.absentUndelivered r.key)

/-- What a snapshot says to a relay: nothing, unless its setting is absent. -/
def reconcile (snapshot : Setting.Snapshot) (r : Reconciler) (s : System) : System :=
  if (snapshot.get r.key).isSome then s else s.send r

/-! ## Actions -/

def remove (i : Nat) (s : System) : System :=
  { s with awake := s.awake.filter (·.id != i), resting := s.resting.filter (·.id != i) }

/-- Gives a producer its place after an action. One that can go on keeps its turn, and one at rest stands behind the
others that rest. -/
def place (t : Task) (s : System) : System :=
  if t.producer.isReady s.world then { s with awake := t :: s.awake }
  else { s with resting := s.resting ++ [t] }

/-- One action of the producer of a number. Nothing happens if it is at its end, or cannot act. -/
def act (i : Nat) (s : System) : System :=
  match s.tasks.find? (·.id == i) with
  | none => s
  | some t =>
    if t.producer.isReady s.world then
      let (world, next, reports) := t.producer.step s.world
      let s := { s with world }.remove i
      let s := match next with
        | none => s
        | some producer => s.place ⟨i, producer⟩
      reports.foldl send s.rouse
    else s

/-- One action of the producer of a number, with either kind of sums. A sampler that breaks off comes to its end without
a word, and its gate stays as it is. -/
def actWith (arithmetic : Sampler.Arithmetic) (i : Nat) (s : System) : System :=
  match s.tasks.find? (·.id == i) with
  | some ⟨_, .sampler p⟩ =>
    match p.isReady s.world, p.stepWith arithmetic s.world with
    | true, .error world => ({ s with world }.remove i).rouse
    | _, _ => s.act i
  | _ => s.act i

def firstReady? (s : System) : Option Nat :=
  (s.awake.find? fun t => t.producer.isReady s.world).map (·.id)

def load (s : System) : Nat := (s.tasks.map fun t => t.producer.load s.world).foldr (· + ·) 0

/-- At most so many actions, each by the first producer in line that can act. -/
def settleWithin : Nat → System → System
  | 0, s => s
  | n + 1, s =>
    match s.firstReady? with
    | none => s
    | some i => settleWithin n (s.act i)

/-- Actions until all producers rest. Each action lowers the load, which therefore bounds their number. -/
def settle (s : System) : System := settleWithin s.load s

/-! ## Time -/

/-- The earliest time at which a producer can act if nothing else happens. -/
def nextDue? (s : System) : Option Nat := (s.tasks.filterMap fun t => t.producer.dueAt?).min?

def setClock (t : Nat) (s : System) : System := s.onWorld fun w => { w with now := t }

/-- Passes time up to `target` in at most `fuel` moments. At each moment the producers act until they rest, and then the
observer sees the system. What is due at the target itself is left for later. -/
def passWith {σ : Type} (observe : σ → System → σ) (target : Nat) : Nat → σ → System → σ × System
  | 0, st, s => (st, s.setClock target)
  | fuel + 1, st, s =>
    let s := s.settle
    let st := observe st s
    match s.nextDue? with
    | some t =>
      if s.world.now < t ∧ t < target then passWith observe target fuel st (s.setClock t)
      else (st, s.setClock target)
    | none => (st, s.setClock target)

/-- Lets a number of milliseconds pass under the eyes of an observer. No time at all is no chance to act. -/
def waitWith {σ : Type} (observe : σ → System → σ) (ms : Nat) (st : σ) (s : System) : σ × System :=
  let ms := Ticker.pause ms
  passWith observe (s.world.now + ms) ms st s

def wait (ms : Nat) (s : System) : System := (s.waitWith (fun u _ => u) ms ()).2

end System
end Dashboard
