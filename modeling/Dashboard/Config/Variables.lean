import Dashboard.Config.Basic
import Dashboard.Layer.Path

/-! # Configuration by variables

A variable of the environment sets the value of a field: `STATUSBOARD_SERVER__BASE_URL` sets `server.base_url`.

* `Config.fields`: the names of all fields.
* `Config.variableOf`: the variable of a field.
* `Config.fieldOf?`: the name that a variable sets.
* `Config.variableLayer`: the values that variables set.
-/

namespace Dashboard.Config
set_option autoImplicit false

def fields : List String :=
  ["server.base_url", "server.health_path", "server.run_status_path",
    "server.validation_status_path", "server.request_timeout_ms",
    "polling.server_interval_ms", "polling.run_status_interval_ms",
    "polling.validation_status_interval_ms",
    "settings.scenarios_directory", "settings.gridpath_database", "settings.python_environment"]

/-- What the names of variables that are meant for the dashboard begin with, in lower case. -/
def variableStart : List Char := "statusboard_".toList

def variableOf (field : String) : String :=
  String.ofList ((variableStart ++ field.toList.flatMap fun c => if c = '.' then ['_', '_'] else [c]).map
    Char.toUpper)

def dotted : List Char → List Char
  | '_' :: '_' :: r => '.' :: dotted r
  | c :: r => c :: dotted r
  | [] => []

/-- The name that a variable sets, if the variable is meant for the dashboard. Case does not count. -/
def fieldOf? (name : String) : Option String :=
  let cs := name.toList.map Char.toLower
  if variableStart.isPrefixOf cs then some (String.ofList (dotted (cs.drop variableStart.length)))
  else none

def variableLayer (environment : Entries String) : Entries Layer.Tree :=
  environment.filterMap fun v =>
    (fieldOf? v.1).map fun name => (name, .leaf (some "the environment") (.text v.2))

theorem fieldOf?_variableOf {f : String} (h : f ∈ fields) : fieldOf? (variableOf f) = some f := by
  revert f
  decide +kernel

end Dashboard.Config
