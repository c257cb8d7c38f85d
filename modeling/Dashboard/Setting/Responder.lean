import Dashboard.Setting.Store
import Dashboard.Failure

/-! # Answering requests for a snapshot

* `Setting.Responder`: how long an answer takes, and what it is: a failure, fixed values, or those of the store.
* `Responder.call`, `Responder.answer`: the two ends of a request.
-/

namespace Dashboard.Setting
set_option autoImplicit false

/-- Who answers, and the number of requests so far, which is meant to be less than 2 ^ 64. -/
structure Responder where
  latency : Nat := 0
  fault : Option String := none
  fixed : Option Snapshot := none
  calls : Nat := 0
  deriving DecidableEq, Repr

namespace Responder

def call (r : Responder) : Responder := { r with calls := r.calls + 1 }

def answer (r : Responder) (store : Store) : Except Failure Snapshot :=
  match r.fault with
  | some message => .error (.settings message)
  | none => .ok (r.fixed.getD store.snapshot)

end Responder
end Dashboard.Setting
