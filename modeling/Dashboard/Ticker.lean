/-! # Times of a periodic task

A task of period `p` becomes due at a deadline. If it is taken late, the deadline after it counts from the late time, so
that missed times are not made up for; a lateness within the tolerance is ignored.

* `Ticker.tolerance`, `Ticker.next`: the deadline after one that was taken.
* `Ticker.period`: the period that is used for the one asked for.
* `Ticker.pause`: the time that a pause takes.
* `Ticker.starts`: the times at which tasks of given durations begin.
-/

namespace Dashboard.Ticker
set_option autoImplicit false

def tolerance : Nat := 5

def next (period due now : Nat) : Nat :=
  if due + tolerance < now then now + period else due + period

def period (asked : Nat) : Nat := max asked 1

/-- The longest pause in milliseconds: thirty years of 365 days. -/
def longestPause : Nat := 30 * 365 * 24 * 60 * 60 * 1000

/-- The time that a pause takes: what was asked for, up to the longest pause. -/
def pause (asked : Nat) : Nat := min asked longestPause

/-- The times at which the tasks begin if the task is ready at `now` and the deadline is `due`; each task takes its
duration and then waits for its deadline. -/
def starts (period : Nat) : (due now : Nat) → List Nat → List Nat
  | _, _, [] => []
  | due, now, duration :: durations =>
    let start := max now due
    start :: starts period (next period due start) (start + duration) durations

theorem pause_of_le {asked : Nat} (h : asked ≤ longestPause) : pause asked = asked := by
  unfold pause
  omega

theorem le_next (period due now : Nat) : due + period ≤ next period due now := by
  unfold next
  split <;> omega

theorem next_of_on_time {period due now : Nat} (h : now ≤ due + tolerance) :
    next period due now = due + period := by
  unfold next
  split <;> omega

end Dashboard.Ticker
