import Dashboard.Command.Options

/-! # Help texts

* `Command.helpText`: the help text, short or long.
* `Command.versionText`: name and version.
-/

namespace Dashboard.Command
set_option autoImplicit false

def programName : String := "statusboard"

def versionText : String := programName ++ " 0.1.0\n"

def summary : String := "Live status dashboard for scenario server, runs and settings"

def description : String :=
  "Polls the scenario server's health, run-status and validation-status endpoints, "
    ++ "follows the dashboard settings, and prints the aggregated view every time a status changes."

namespace Switch

def valueName? : Switch → Option String
  | .param .config => some "CONFIG"
  | .param .durationSecs => some "SECONDS"
  | .param .logFormat => some "FORMAT"
  | _ => none

def default? : Switch → Option String
  | .param .config => some ({} : Options).config
  | _ => none

def about (isLong : Bool) : Switch → String
  | .param .config => "Path to TOML configuration file"
  | .flag .debug => "Enable debug level logging"
  | .flag .verbose => "Enable verbose info level logging"
  | .flag .quiet => "Enable quiet mode - only log errors"
  | .flag .validateConfig => "Validate configuration file and exit without starting the dashboard"
  | .flag .printConfig => "Print default configuration in TOML format and exit"
  | .flag .demo => "Run against mock sources instead of the scenario server"
  | .param .durationSecs => "Stop after SECONDS instead of waiting for Ctrl+C"
  | .param .logFormat => "Log output format: json, pretty, or compact"
  | .help => if isLong then "Print help (see a summary with '-h')" else "Print help (see more with '--help')"
  | .version => "Print version"

def usage (s : Switch) : String :=
  let letter := s.short?.elim "    " fun c => "-" ++ String.singleton c ++ ", "
  letter ++ "--" ++ s.long ++ s.valueName?.elim "" fun v => " <" ++ v ++ ">"

end Switch

def usageWidth : Nat := (Switch.all.map fun s => s.usage.length).foldl max 0

def shortEntry (s : Switch) : String :=
  let gap := String.ofList (List.replicate (usageWidth - s.usage.length) ' ')
  let default := s.default?.elim "" fun v => " [default: " ++ v ++ "]"
  "  " ++ s.usage ++ gap ++ "  " ++ s.about false ++ default ++ "\n"

def longEntry (s : Switch) : String :=
  let indent := String.ofList (List.replicate 10 ' ')
  let default := s.default?.elim "" fun v => "\n" ++ indent ++ "\n" ++ indent ++ "[default: " ++ v ++ "]"
  "  " ++ s.usage ++ "\n" ++ indent ++ s.about true ++ default ++ "\n"

def helpText (isLong : Bool) : String :=
  let entries :=
    if isLong then "\n".intercalate (Switch.all.map longEntry)
    else String.join (Switch.all.map shortEntry)
  (if isLong then description else summary) ++ "\n\nUsage: " ++ programName ++ " [OPTIONS]\n\nOptions:\n" ++ entries

end Dashboard.Command
