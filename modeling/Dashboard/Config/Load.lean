import Dashboard.Config.File
import Dashboard.Config.Variables
import Dashboard.Shape.OfLayers

/-! # Loading the configuration

Three layers make a configuration: the defaults, the configuration file over them, and the variables of the environment
over both.

* `Config.defaults`, `Config.fileLayer`: the first two layers.
* `Config.LoadError`: why no configuration comes out.
* `Config.ofLayers`: the configuration that layers make.
* `Config.load`: the configuration at a path.
-/

namespace Dashboard.Config
set_option autoImplicit false

/-! ## Layers -/

/-- The values that hold where no other layer says anything. Settings have none. -/
def defaults : Entries Layer.Tree :=
  let default : Config := {}
  let text (s : String) : Layer.Tree := .leaf none (.text s)
  let natural (n : UInt64) : Layer.Tree := .leaf none (.int n.toNat)
  [("server.base_url", text default.server.baseUrl),
    ("server.health_path", text default.server.healthPath),
    ("server.run_status_path", text default.server.runStatusPath),
    ("server.validation_status_path", text default.server.validationStatusPath),
    ("server.request_timeout_ms", natural default.server.requestTimeout),
    ("polling.server_interval_ms", natural default.polling.server),
    ("polling.run_status_interval_ms", natural default.polling.runStatus),
    ("polling.validation_status_interval_ms", natural default.polling.validationStatus)]

/-- Why no configuration comes out: the file is not of its format, or the layers hold what cannot be read. -/
inductive LoadError where
  | badFile (path : String)
  | badValue (f : Layer.Fault)
  deriving DecidableEq, Repr

def LoadError.message : LoadError → String
  | .badFile path => "malformed configuration file in " ++ path
  | .badValue f => f.message

def fileLayer : Option File → Except LoadError (Entries Layer.Tree)
  | none => .ok []
  | some f =>
    match Layer.ofDocument? f.format f.path f.text with
    | some layer => .ok layer
    | none => .error (.badFile f.path)

/-! ## Loading -/

def ofLayers (layers : List (Entries Layer.Tree)) : Except LoadError Config :=
  ((shape.ofLayers (layers.foldl Layer.overlay (.table none []))).map ofValue).mapError .badValue

/-- The path of the configuration file where no other is given. -/
def defaultPath : String := "statusboard.toml"

/-- The configuration at a path. The reader gives what stands in files. -/
def load (read : String → Option String) (environment : Entries String) (path : String) :
    Except LoadError Config := do
  let file ← fileLayer (File.find? read path)
  ofLayers [defaults, file, variableLayer environment]

end Dashboard.Config
