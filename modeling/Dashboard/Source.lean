import Dashboard.Endpoint
import Dashboard.Status

/-! # Sources of statuses

A source is sampled in two steps: the sample begins, and after the latency it either finishes or is abandoned.

* `Scripted`: a source that answers by a script: queued replies first, then the steady one.
* `Scripted.respond`, `Scripted.enqueue`, `Scripted.delay`: the script.
* `Source`: a scripted source, one that cycles through outcomes, or an address that is never reached.
* `Source.begin`, `Source.finish`, `Source.abandon`: the steps of a sample.
-/

namespace Dashboard
set_option autoImplicit false

/-- What a scripted source answers: a status, or a message about what went wrong. -/
abbrev Reply := Except String Status

def Reply.describe : Reply → String
  | .ok s => "Ok(" ++ s.describe ++ ")"
  | .error m => "Err(" ++ Text.quoted m ++ ")"

/-- A source that answers by a script, and what it counts of its samples. The counters have no bound here: they stand for
words of 64 bits that are meant to count fewer than 2 ^ 64 samples. -/
structure Scripted where
  name : String
  steady : Reply
  queued : List Reply := []
  latency : Nat := 0
  calls : Nat := 0
  completed : Nat := 0
  inFlight : Nat := 0
  maxInFlight : Nat := 0

namespace Scripted

/-! ## The script -/

/-- Sets the steady reply. -/
def respond (r : Reply) (s : Scripted) : Scripted := { s with steady := r }

/-- Queues a reply, which is given once. -/
def enqueue (r : Reply) (s : Scripted) : Scripted := { s with queued := s.queued ++ [r] }

/-- Sets the latency of the samples that are still to begin. -/
def delay (ms : Nat) (s : Scripted) : Scripted := { s with latency := ms }

/-! ## Samples -/

def begin (s : Scripted) : Scripted :=
  { s with
    calls := s.calls + 1
    inFlight := s.inFlight + 1
    maxInFlight := max s.maxInFlight (s.inFlight + 1) }

def reply (s : Scripted) : Reply := s.queued.head?.getD s.steady

def finish (s : Scripted) : Scripted :=
  { s with queued := s.queued.tail, completed := s.completed + 1, inFlight := s.inFlight - 1 }

def abandon (s : Scripted) : Scripted := { s with inFlight := s.inFlight - 1 }

/-- What a reply means to the one who sampled: a failure carries the name of the source. -/
def outcome (s : Scripted) : Reply → Except Failure Status
  | .ok status => .ok status
  | .error message => .error (.source s.name message)

end Scripted

inductive Source where
  | scripted (s : Scripted)
  | cycling (name : String) (outcomes : List (Except Failure Status)) (taken : Nat)
  | remote (name address : String)

namespace Source

def name : Source → String
  | .scripted s => s.name
  | .cycling n _ _ => n
  | .remote n _ => n

def latency : Source → Nat
  | .scripted s => s.latency
  | _ => 0

def begin : Source → Source
  | .scripted s => .scripted s.begin
  | other => other

def outcome : Source → Except Failure Status
  | .scripted s => s.outcome s.reply
  | .cycling n outcomes taken =>
    (outcomes[taken % outcomes.length]?).getD (.error (.source n "no outcome"))
  | .remote _ address => .error (.request (Endpoint.request address))

def finish : Source → Source
  | .scripted s => .scripted s.finish
  | .cycling n outcomes taken => .cycling n outcomes (taken + 1)
  | other => other

def abandon : Source → Source
  | .scripted s => .scripted s.abandon
  | other => other

end Source
end Dashboard
