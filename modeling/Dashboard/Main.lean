import Dashboard.Command.Program

/-! The program on a command line: it reads files and variables, prints, and lets the time of a dashboard pass. -/

namespace Dashboard.Command
set_option autoImplicit false

/-- The files among which the configuration file of these arguments is looked for. -/
def readFiles (args : List String) : IO (Entries String) := do
  match Options.ofArguments args with
  | .error _ => return []
  | .ok o =>
    let found ← (Config.File.candidates o.config).mapM fun (path : String) => do
      try pure (some (path, ← IO.FS.readFile path)) catch _ => pure none
    return found.filterMap id

def readVariables : IO (Entries String) := do
  let found ← Config.fields.mapM fun field => do
    let name := Config.variableOf field
    return (← IO.getEnv name).map fun value => (name, value)
  return found.filterMap id

/-- Shows a dashboard second by second, for a number of seconds or without an end. -/
partial def showLive (seconds : Option Nat) (live : Live) : IO Live := do
  if seconds = some 0 then return live
  let next := live.run 1000
  for text in next.texts.drop live.texts.length do
    IO.println text
  IO.sleep 1000
  showLive (seconds.map (· - 1)) next

end Dashboard.Command

open Dashboard Dashboard.Command in
def main (args : List String) : IO UInt32 := do
  let files ← readFiles args
  match Decision.ofArguments args (fun path => files.lookup path) (← readVariables) with
  | .finish o =>
    IO.print o.stdout
    IO.eprint o.stderr
    return UInt32.ofNat o.exit
  | .display warnings config sources seconds =>
    IO.eprint warnings
    let live ← showLive (seconds.map UInt64.toNat) (Live.start config sources)
    for text in live.finish.texts.drop live.texts.length do
      IO.println text
    return 0
