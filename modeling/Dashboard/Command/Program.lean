import Dashboard.Command.Help
import Dashboard.Config.Load
import Dashboard.Config.Printer
import Dashboard.Live

/-! # The program

* `Command.Outcome`: how a run of the program ends.
* `Command.Decision`, `Command.Decision.ofArguments`: what the program does with its arguments, files and variables.
* `Command.display`: the dashboard shown for a while.
* `Command.run?`: a run that ends by itself.
-/

namespace Dashboard.Command
set_option autoImplicit false

structure Outcome where
  exit : Nat
  stdout : String
  stderr : String
  deriving DecidableEq, Repr

def linesText (lines : List String) : String := String.join (lines.map (· ++ "\n"))

/-! ## Texts -/

def defaultConfigLines : Except Toml.Unwritable (List String) :=
  (({} : Config).toToml).map fun text =>
    ["# Statusboard Configuration File",
      "# Environment overrides use STATUSBOARD_<SECTION>__<KEY>",
      "",
      text,
      "# Optional initial values, under [settings]:",
      "# scenarios_directory = \"/path/to/scenarios\"",
      "# gridpath_database = \"/path/to/io.db\"",
      "# python_environment = \"/path/to/env\""]

/-- The sentence for a command line that cannot be followed. -/
def Misuse.message : Misuse → String
  | .unknownArgument => "unexpected argument"
  | .missingValue => "a value is required"
  | .needlessValue => "unexpected value"
  | .badValue => "invalid value"
  | .repeated => "an argument cannot be used more than once"

def Stop.outcome : Stop → Outcome
  | .help isLong => ⟨0, helpText isLong, ""⟩
  | .version => ⟨0, versionText, ""⟩
  | .misuse m => ⟨2, "", "error: " ++ m.message ++ "\n"⟩

def logFormats : List String := ["json", "compact", "pretty"]

def formatWarning (o : Options) : String :=
  match o.logFormat with
  | none => ""
  | some f =>
    if f ∈ logFormats then ""
    else "Warning: Unknown log format '" ++ f ++ "', using default\n"

/-! ## Sources -/

/-- The sources of a demonstration: a server that fails once and is up from then on, and two tables. -/
def demoSources : List Source :=
  [.scripted { name := "server", steady := .ok .up,
               queued := [.error "demo: server still starting"], latency := 150 },
    .scripted { name := "run_status",
                steady := .ok (.table [["base_case", "complete"], ["high_load", "running"]]),
                latency := 300 },
    .scripted { name := "validation_status", steady := .ok (.table [["base_case", "valid"]]),
                latency := 0 }]

def Options.sources (o : Options) (c : Config) : List Source :=
  if o.demo then demoSources else c.server.sources

/-! ## Decisions -/

/-- What the program does: it ends at once, or it shows a dashboard for a number of seconds or without an end. The warnings
are printed first. -/
inductive Decision where
  | finish (o : Outcome)
  | display (warnings : String) (config : Config) (sources : List Source) (seconds : Option UInt64)

namespace Decision

def fault (warnings message : String) : Decision := .finish ⟨1, "", warnings ++ message ++ "\n"⟩

/-- What the program does with a configuration that was loaded. -/
def ofConfig (o : Options) (warnings : String) (c : Config) : Decision :=
  match c.validate with
  | .error e =>
    fault warnings ((if o.validateConfig then "✗ Configuration validation failed: " else "Error: ") ++ e.message)
  | .ok () =>
    if o.validateConfig then .finish ⟨0, "✓ Configuration is valid\n", warnings⟩
    else .display warnings c (o.sources c) o.durationSecs

def ofOptions (o : Options) (read : String → Option String) (environment : Entries String) : Decision :=
  if o.printConfig then
    match defaultConfigLines with
    | .ok lines => .finish ⟨0, linesText lines, ""⟩
    | .error e => fault "" ("Error: " ++ e.message)
  else
    match Config.load read environment o.config with
    | .error e => fault (formatWarning o) ("Error: " ++ e.message)
    | .ok c => ofConfig o (formatWarning o) c

def ofArguments (args : List String) (read : String → Option String) (environment : Entries String) : Decision :=
  match Options.ofArguments args with
  | .error s => .finish s.outcome
  | .ok o => ofOptions o read environment

end Decision

/-! ## Runs -/

def display (c : Config) (sources : List Source) (seconds : Nat) : List String :=
  ((Live.start c sources).run (1000 * seconds)).finish.texts

def run? (args : List String) (read : String → Option String) (environment : Entries String) : Option Outcome :=
  match Decision.ofArguments args read environment with
  | .finish o => some o
  | .display warnings c sources seconds =>
    seconds.map fun n => ⟨0, linesText (display c sources n.toNat), warnings⟩

end Dashboard.Command
