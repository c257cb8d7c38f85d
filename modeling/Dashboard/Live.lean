import Dashboard.Config.Session
import Dashboard.Console

/-! # A live dashboard

* `Live`: a system, the session that runs in it, and the console that shows its board.
* `Live.start`, `Live.run`, `Live.finish`: the life of a dashboard.
-/

namespace Dashboard
set_option autoImplicit false

structure Live where
  system : System
  session : Session
  console : Console

namespace Live

/-- Starts the dashboard of a configuration over three sources: the server, its runs and its validations. The console
follows the board from the activation on. -/
def start (c : Config) (sources : List Source) : Live :=
  let world : World := { store := .ofSnapshot c.settings, sources }
  let (_, session, system) := (c.polling.session 0 1 2).activate { world }
  ⟨system, session, .watch system.world.board⟩

/-- Runs for a number of milliseconds. The console looks at the board whenever all producers rest. -/
def run (ms : Nat) (l : Live) : Live :=
  let (console, system) := l.system.waitWith (fun c s => c.refresh s.world.board) ms l.console
  { l with system, console }

def finish (l : Live) : Live :=
  let (_, session, system) := l.session.deactivate l.system
  ⟨system, session, l.console.close system.world.board⟩

def texts (l : Live) : List String := l.console.shown.map Board.View.text

end Live
end Dashboard
