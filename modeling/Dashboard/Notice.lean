import Dashboard.Source
import Dashboard.Setting
import Dashboard.Text.Duration

/-! # Notices

The dashboard reports what it does. A notice is what happened; its level says who wants to know, its text says it in words.

* `Level`: how much a notice matters.
* `Notice`: what happened.
* `Journal`: notices with their times, the latest first.
* `Journal.lines`: the written notices of a level or above, ordered by time and then by text.
-/

namespace Dashboard
set_option autoImplicit false

inductive Level where
  | trace
  | debug
  | info
  | warn
  | error
  deriving DecidableEq, Repr

namespace Level

def rank : Level → Nat
  | .trace => 0
  | .debug => 1
  | .info => 2
  | .warn => 3
  | .error => 4

def name : Level → String
  | .trace => "TRACE"
  | .debug => "DEBUG"
  | .info => "INFO"
  | .warn => "WARN"
  | .error => "ERROR"

end Level

inductive Notice where
  | refused (kind : Status.Kind) (slot : Slot)
  | updated (slot : Slot) (status : Status)
  | discarded (slot : Slot)
  | zeroPeriod (name : String)
  | samplerStarts (name : String) (slot : Slot) (period : Nat)
  | samplerStops (name : String)
  | samplerStopped (name : String)
  | sampled (name : String) (status : Status)
  | sampleFailed (name : String) (attempt : UInt32) (failure : Failure)
  | recovered (name : String) (failures : UInt32)
  | answered (name : String) (reply : Reply)
  | asked (address : String)
  | subscribes (key : Setting)
  | unsubscribes (key : Setting)
  | channelClosed (key : Setting)
  | relayStopped (key : Setting)
  | pushed (key : Setting) (value : String)
  | cleared (key : Setting)
  | noValueYet (key : Setting)
  | absentIgnored (key : Setting)
  | absentReported (key : Setting)
  | absentUndelivered (key : Setting)
  | settingChanged (key : Setting) (value : Option String)
  | alreadyActive
  | notActive
  | activates
  | deactivated
  | snapshotPending
  | snapshotCancelled
  | settingsUnset (keys : List Setting)
  | snapshotFailed (failure : Failure)

namespace Notice

def level : Notice → Level
  | .updated .. | .asked .. => .trace
  | .samplerStarts .. | .recovered .. | .subscribes .. | .activates | .deactivated
  | .settingsUnset .. => .info
  | .refused .. | .zeroPeriod .. | .sampleFailed .. | .channelClosed .. | .snapshotFailed .. => .warn
  | _ => .debug

private def single (s : String) : String := "'" ++ s ++ "'"

def text : Notice → String
  | .refused kind slot =>
    "Rejected " ++ kind.describe ++ " status for slot " ++ single slot.name ++ " (expects " ++
      slot.kind.describe ++ ")"
  | .updated slot status => "Slot " ++ single slot.name ++ " updated to " ++ status.text
  | .discarded slot => "Discarding update for slot " ++ single slot.name ++ " after deactivation"
  | .zeroPeriod name => "Poller " ++ single name ++ " configured with a zero period, using 1ms"
  | .samplerStarts name slot period =>
    "Starting poller " ++ single name ++ " for slot " ++ single slot.name ++ " every " ++
      Text.duration period
  | .samplerStops name => "Stopping poller " ++ single name
  | .samplerStopped name => "Poller " ++ single name ++ " stopped"
  | .sampled name status => "Poller " ++ single name ++ " sampled " ++ status.text
  | .sampleFailed name attempt failure =>
    "Poller " ++ single name ++ " sample failed (attempt " ++ toString attempt ++ "): " ++
      failure.message
  | .recovered name failures =>
    "Poller " ++ single name ++ " recovered after " ++ toString failures ++ " failure(s)"
  | .answered name reply => "Mock source " ++ single name ++ " answered " ++ reply.describe
  | .asked address => "GET " ++ address
  | .subscribes key => "Subscribing to setting " ++ single key.name
  | .unsubscribes key => "Unsubscribing from setting " ++ single key.name
  | .channelClosed key => "Settings channel " ++ single key.name ++ " closed by the store"
  | .relayStopped key => "Settings bridge " ++ single key.name ++ " stopped"
  | .pushed key value => "Setting " ++ single key.name ++ " pushed " ++ single value
  | .cleared key => "Setting " ++ single key.name ++ " cleared"
  | .noValueYet key => "Setting " ++ single key.name ++ " has no value yet"
  | .absentIgnored key =>
    "Ignoring absent snapshot for " ++ single key.name ++ ": a pushed value arrived first"
  | .absentReported key => "Snapshot reports " ++ single key.name ++ " absent"
  | .absentUndelivered key =>
    "Settings bridge " ++ single key.name ++ " already stopped, dropping snapshot result"
  | .settingChanged key value =>
    "Setting " ++ single key.name ++ " changed to " ++
      (match value with
        | none => "None"
        | some v => "Some(" ++ Text.quoted v ++ ")")
  | .alreadyActive => "Dashboard already active, ignoring activate"
  | .notActive => "Dashboard not active, ignoring deactivate"
  | .activates => "Activating dashboard (activation ID)"
  | .deactivated => "Dashboard deactivated (activation ID)"
  | .snapshotPending => "Settings snapshot still pending, its result will be dropped"
  | .snapshotCancelled => "Deactivated before the settings snapshot resolved"
  | .settingsUnset keys => "Settings not set: " ++ Text.bracketed (keys.map Setting.describe)
  | .snapshotFailed failure => "Settings snapshot failed: " ++ failure.message

end Notice

/-! ## Journals -/

abbrev Journal := List (Nat × Notice)

namespace Journal

/-- The order of the lines: by time, then by level and text. -/
def before (a b : Nat × String) : Bool := a.1 < b.1 || (a.1 == b.1 && (a.2 < b.2 || a.2 == b.2))

def lines (threshold : Level) (j : Journal) : List String :=
  let kept := j.filter fun e => threshold.rank ≤ e.2.level.rank
  let written := kept.map fun e => (e.1, e.2.level.name ++ " " ++ e.2.text)
  (written.mergeSort before).map fun e => toString e.1 ++ " " ++ e.2

end Journal
end Dashboard
