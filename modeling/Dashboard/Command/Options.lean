import Dashboard.Config.Load
import Dashboard.Text.Digits

/-! # Options of the command line

* `Command.Options`: what the command line asks for.
* `Command.Flag`, `Command.Param`, `Command.Switch`: what can be written on it.
* `Command.Stop`: why the program does not start.
* `Command.Options.ofArguments`: the options that arguments give.
-/

namespace Dashboard.Command
set_option autoImplicit false

/-! ## Switches -/

inductive Flag where
  | debug
  | verbose
  | quiet
  | validateConfig
  | printConfig
  | demo
  deriving DecidableEq, Repr

inductive Param where
  | config
  | durationSecs
  | logFormat
  deriving DecidableEq, Repr

inductive Switch where
  | flag (f : Flag)
  | param (p : Param)
  | help
  | version
  deriving DecidableEq, Repr

namespace Switch

def all : List Switch :=
  [.param .config, .flag .debug, .flag .verbose, .flag .quiet, .flag .validateConfig,
    .flag .printConfig, .flag .demo, .param .durationSecs, .param .logFormat, .help, .version]

def long : Switch → String
  | .flag .debug => "debug"
  | .flag .verbose => "verbose"
  | .flag .quiet => "quiet"
  | .flag .validateConfig => "validate-config"
  | .flag .printConfig => "print-config"
  | .flag .demo => "demo"
  | .param .config => "config"
  | .param .durationSecs => "duration-secs"
  | .param .logFormat => "log-format"
  | .help => "help"
  | .version => "version"

/-- The letter after one hyphen, for switches that have one. -/
def short? : Switch → Option Char
  | .flag .debug => some 'd'
  | .flag .verbose => some 'v'
  | .flag .quiet => some 'q'
  | .param .config => some 'c'
  | .help => some 'h'
  | .version => some 'V'
  | _ => none

/-- The switch of a name. Names are not abbreviated. -/
def ofLong? (name : String) : Option Switch := all.find? fun s => s.long = name

def ofShort? (c : Char) : Option Switch := all.find? fun s => s.short? = some c

theorem mem_all (s : Switch) : s ∈ all := by
  cases s with
  | flag f => cases f <;> decide
  | param p => cases p <;> decide
  | help => decide
  | version => decide

theorem ofLong?_long (s : Switch) : ofLong? s.long = some s := by
  cases s with
  | flag f => cases f <;> rfl
  | param p => cases p <;> rfl
  | help => rfl
  | version => rfl

end Switch

/-! ## Options -/

structure Options where
  config : String := Config.defaultPath
  debug : Bool := false
  verbose : Bool := false
  quiet : Bool := false
  validateConfig : Bool := false
  printConfig : Bool := false
  demo : Bool := false
  durationSecs : Option UInt64 := none
  logFormat : Option String := none
  deriving DecidableEq, Repr

inductive Misuse where
  | unknownArgument
  | missingValue
  | needlessValue
  | badValue
  | repeated
  deriving DecidableEq, Repr

inductive Stop where
  | help (isLong : Bool)
  | version
  | misuse (m : Misuse)
  deriving DecidableEq, Repr

namespace Options

def withFlag (o : Options) : Flag → Options
  | .debug => { o with debug := true }
  | .verbose => { o with verbose := true }
  | .quiet => { o with quiet := true }
  | .validateConfig => { o with validateConfig := true }
  | .printConfig => { o with printConfig := true }
  | .demo => { o with demo := true }

/-- The options with a value. A number of seconds has to be one. -/
def withValue (o : Options) (p : Param) (v : String) : Except Stop Options :=
  match p with
  | .config => .ok { o with config := v }
  | .logFormat => .ok { o with logFormat := some v }
  | .durationSecs =>
    match Text.natural? v with
    | some n => .ok { o with durationSecs := some n }
    | none => .error (.misuse .badValue)

end Options

/-! ## Reading arguments -/

/-- The options so far, the switches that were given, and a switch whose value was not taken yet: either the value is
still to come, or it came as an argument of its own. -/
structure Draft where
  options : Options := {}
  given : List Switch := []
  waiting : Option (Param × Option String) := none

namespace Draft

/-- Marks a switch as given. None may be given twice. -/
def claim (s : Switch) (d : Draft) : Except Stop Draft :=
  if s ∈ d.given then .error (.misuse .repeated) else .ok { d with given := s :: d.given }

def assign (p : Param) (v : String) (d : Draft) : Except Stop Draft := do
  let d ← d.claim (.param p)
  let options ← d.options.withValue p v
  .ok { d with options }

/-- Takes the value that is waiting. It must have come by now. -/
def settle (d : Draft) : Except Stop Draft :=
  match d.waiting with
  | none => .ok d
  | some (_, none) => .error (.misuse .missingValue)
  | some (p, some v) => assign p v { d with waiting := none }

/-- A switch without a value beside it. What waits is taken first. -/
def switch (isLong : Bool) (s : Switch) (d : Draft) : Except Stop Draft := do
  let d ← d.settle
  match s with
  | .help => .error (.help isLong)
  | .version => .error .version
  | .param p => .ok { d with waiting := some (p, none) }
  | .flag f =>
    let d ← d.claim s
    .ok { d with options := d.options.withFlag f }

def switchWith (p : Param) (v : String) (d : Draft) : Except Stop Draft := do
  let d ← d.settle
  d.assign p v

/-- A switch after two hyphens, with the value after the equals sign if there is one. -/
def long (name : String) (value : Option String) (d : Draft) : Except Stop Draft :=
  match Switch.ofLong? name, value with
  | none, _ => .error (.misuse .unknownArgument)
  | some s, none => d.switch true s
  | some (.param p), some v => d.switchWith p v
  | some _, some _ => .error (.misuse .needlessValue)

/-- Letters after one hyphen. What follows the letter of a switch with a value is the value, an equals sign before it
aside. -/
def letters : List Char → Draft → Except Stop Draft
  | [], d => .ok d
  | c :: rest, d =>
    match Switch.ofShort? c, rest with
    | none, _ => .error (.misuse .unknownArgument)
    | some (.param p), '=' :: v => d.switchWith p (String.ofList v)
    | some (.param p), v :: vs => d.switchWith p (String.ofList (v :: vs))
    | some s, _ => d.switch false s >>= letters rest

/-- An argument that is no switch: the value that is waited for. -/
def plain (a : String) (d : Draft) : Except Stop Draft :=
  match d.waiting with
  | some (p, none) => .ok { d with waiting := some (p, some a) }
  | _ => .error (.misuse .unknownArgument)

/-- The part before an equals sign, and the part after it if there is one. -/
def cut (cs : List Char) : String × Option String :=
  let name := cs.takeWhile (· ≠ '=')
  (String.ofList name,
    match cs.drop name.length with
    | [] => none
    | _ :: value => some (String.ofList value))

/-- One argument other than two hyphens alone. One hyphen alone is no switch. -/
def argument (a : String) (d : Draft) : Except Stop Draft :=
  match a.toList with
  | '-' :: '-' :: cs => d.long (cut cs).1 (cut cs).2
  | '-' :: c :: cs => d.letters (c :: cs)
  | _ => d.plain a

/-- All arguments. Nothing may follow two hyphens alone. -/
def arguments : List String → Draft → Except Stop Draft
  | [], d => d.settle
  | a :: rest, d =>
    if a = "--" then
      if rest = [] then d.settle else .error (.misuse .unknownArgument)
    else d.argument a >>= arguments rest

end Draft

/-- The options that arguments give. The first fault is reported. -/
def Options.ofArguments (args : List String) : Except Stop Options :=
  (Draft.arguments args {}).map Draft.options

end Dashboard.Command
