import Dashboard.Board.View
import Dashboard.Config.Session

/-! # Scripts

A script drives a board, its producers and its settings step by step. The objects that it makes have names.

* `Script.Plan`: what a session samples.
* `Script.Step`: one step.
* `Script.Answer`: what a step gives.
-/

namespace Dashboard.Script
set_option autoImplicit false

/-- What a session samples: sources of the script, or the addresses of a server. -/
inductive Plan where
  | named (server runStatus validationStatus : String) (polling : Config.Polling)
  | remote (server : Config.Server) (polling : Config.Polling)

inductive Step where
  | wait (ms : Nat)
  | set (slot : Slot) (status : Status)
  | get (slot : Slot)
  | viewGet (slot : Slot)
  | tracked (slot : Slot)
  | view
  | watchRevision (id : String)
  | pollRevision (id : String)
  | source (id : String) (definition : Source)
  | respond (id : String) (reply : Reply)
  | enqueue (id : String) (reply : Reply)
  | latency (id : String) (ms : Nat)
  | counters (id : String)
  | sample (id : String) (timeout : Option Nat)
  | setting (key : Setting) (value : Option String)
  | settingGet (key : Setting)
  | followers
  | snapshotReply (value : Option Setting.Snapshot)
  | snapshotLatency (ms : Nat)
  | snapshotError (message : Option String)
  | snapshotCalls
  | snapshot
  | dropStore
  | gate (id : String) (parent : Option String)
  | gateClose (id : String)
  | gateOpen (id : String)
  | gateClosed (id : String)
  | gateSame (id other : String)
  | writer (id : String) (slot : Slot) (gate : String)
  | narrowWriter (id parent : String)
  | write (id : String) (status : Status)
  | sampler (id source : String) (period : Nat) (fallback : Fallback) (writer : String)
  | samplerLive (id : String)
  | samplerStop (id : String)
  | relay (id : String) (key : Setting) (writer : String)
  | relayLive (id : String)
  | release (id : String)
  | reconcile (id : String) (snapshot : Setting.Snapshot)
  | session (id : String) (plan : Plan)
  | activate (id : String)
  | deactivate (id : String)
  | state (id : String)
  | activation (id : String)
  | dropSession (id : String)

inductive Acquaintance where
  | none
  | new
  | seen
  deriving DecidableEq, Repr

inductive Answer where
  | nothing
  | flag (b : Bool)
  | count (n : Nat)
  | counts (ns : List Nat)
  | text (s : String)
  | value (v : Option String)
  | status (s : Option Status)
  | tracked (slot : Slot) (t : Tracked)
  | view (v : Board.View)
  | revision (changed : Bool) (n : Nat)
  | counters (s : Scripted)
  | sampled (name : String) (status : Status)
  | timedOut
  | failed (f : Failure)
  | snapshot (s : Setting.Snapshot)
  | state (active : Bool) (live : Nat)
  | activation (a : Acquaintance)

end Dashboard.Script
