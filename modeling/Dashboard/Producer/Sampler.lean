import Dashboard.World
import Dashboard.Fallback

/-! # Samplers

A sampler asks a source once per period and writes what it answers. A sample that is under way when the gate closes is
finished, and its result is discarded; no further sample begins.

* `Sampler`: a source, a period, a fallback, a writer, and what the sampler is doing.
* `Sampler.isReady`: whether it can act now; `Sampler.dueAt?`: when it can, if time alone decides.
* `Sampler.record`: what an outcome writes, and the count of failures in a row.
* `Sampler.step`: the next action; a sampler behind a closed gate comes to its end.
* `Sampler.Arithmetic`, `Sampler.stepWith`: what becomes of counts that do not fit, and the next action either way. In
  `record` and `step` they begin again at 0, as in a program that was built without checks.
-/

namespace Dashboard
set_option autoImplicit false

/-- What a sampler is doing: nothing yet, waiting for its deadline, or waiting for a sample. -/
inductive Sampler.Phase where
  | fresh
  | resting (due : Nat)
  | sampling (ends due : Nat)
  deriving DecidableEq, Repr

/-- A producer that samples a source. `failures` counts the failures since the last success, in 32 bits. -/
structure Sampler where
  name : String
  source : Nat
  period : Nat
  fallback : Fallback
  writer : Writer
  failures : UInt32 := 0
  phase : Sampler.Phase := .fresh
  deriving DecidableEq, Repr

namespace Sampler

def isReady (w : World) (p : Sampler) : Bool :=
  match p.phase with
  | .fresh => true
  | .resting due => w.latches.isClosed p.writer.gate || due ≤ w.now
  | .sampling ends _ => ends ≤ w.now

def dueAt? (p : Sampler) : Option Nat :=
  match p.phase with
  | .fresh => none
  | .resting due => some due
  | .sampling ends _ => some ends

def load (w : World) (p : Sampler) : Nat :=
  match p.phase with
  | .fresh => 4
  | .resting due => 2 * (w.now + 1 - due) + 1
  | .sampling _ due => 2 * (w.now + 1 - due) + 2

/-- Writes what an outcome of a sample asks for. A success ends a row of failures. The count begins again at 0 where it
does not fit. -/
def record (outcome : Except Failure Status) (w : World) (p : Sampler) : World × Sampler :=
  match outcome with
  | .ok status =>
    let w := if 0 < p.failures then w.note (.recovered p.name p.failures) else w
    let w := w.note (.sampled p.name status)
    ((w.write p.writer status).2, { p with failures := 0 })
  | .error failure =>
    let failures := p.failures + 1
    let w := w.note (.sampleFailed p.name failures failure)
    let w := match p.fallback.status? with
      | some status => (w.write p.writer status).2
      | none => w
    (w, { p with failures := failures })

def step (w : World) (p : Sampler) : World × Option Sampler :=
  match p.phase with
  | .fresh => (w, some { p with phase := .resting w.now })
  | .resting due =>
    if w.latches.isClosed p.writer.gate then (w.note (.samplerStopped p.name), none)
    else
      let (latency, w) := w.beginSample p.source
      (w, some { p with phase := .sampling (w.now + latency) (Ticker.next p.period due w.now) })
  | .sampling _ due =>
    let (outcome, w) := w.finishSample p.source
    let (w, p) := p.record outcome w
    (w, some { p with phase := .resting due })

/-! ## Sums that do not fit -/

/-- What becomes of a sum that does not fit: it begins again at 0, or it is not formed. -/
inductive Arithmetic where
  | wrapping
  | checked
  deriving DecidableEq, Repr

/-- A sample that came to its end: its outcome, and whether the gate was still open. -/
structure Completion where
  outcome : Except Failure Status
  inTime : Bool

def Completion.isFailure (c : Completion) : Bool :=
  match c.outcome with
  | .ok _ => false
  | .error _ => true

/-- The sample that the next action completes, if it completes one. -/
def completion? (w : World) (p : Sampler) : Option Completion :=
  match p.phase with
  | .sampling _ _ => some ⟨(w.finishSample p.source).1, w.latches.isOpen p.writer.gate⟩
  | _ => none

/-- The next action completes a sample whose failure gets no number of its own. -/
def overflows (w : World) (p : Sampler) : Bool :=
  (p.completion? w).any fun c => c.isFailure && decide (UInt32.size ≤ p.failures.toNat + 1)

/-- The next action, or the world in which the sampler breaks off. It does so before the failure is noted or written. -/
def stepWith (arithmetic : Arithmetic) (w : World) (p : Sampler) : Except World (World × Option Sampler) :=
  match arithmetic with
  | .wrapping => .ok (p.step w)
  | .checked => if p.overflows w then .error (w.finishSample p.source).2 else .ok (p.step w)

end Sampler
end Dashboard
