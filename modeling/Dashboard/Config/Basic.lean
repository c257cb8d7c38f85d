import Dashboard.Setting
import Dashboard.Source
import Dashboard.Shape.OfJson

/-! # Configurations

* `Config`: the server to ask, the periods in milliseconds, and the settings at the start.
* `Config.shape`, `Config.ofValue`, `Config.toValue`: the layout as data. A missing field has its default.
* `Config.validate`: what a usable configuration has to satisfy.
* `Config.Server.sources`: the sources at the addresses of a server.
-/

namespace Dashboard
set_option autoImplicit false

/-- The scenario server: where it is, and how long to wait for it. -/
structure Config.Server where
  baseUrl : String := "http://127.0.0.1:8080"
  healthPath : String := "/server-status"
  runStatusPath : String := "/run-status"
  validationStatusPath : String := "/validation-status"
  requestTimeout : UInt64 := 3000
  deriving DecidableEq, Repr

structure Config.Polling where
  server : UInt64 := 5000
  runStatus : UInt64 := 5000
  validationStatus : UInt64 := 5000
  deriving DecidableEq, Repr

structure Config where
  server : Config.Server := {}
  polling : Config.Polling := {}
  settings : Setting.Snapshot := {}
  deriving DecidableEq, Repr

namespace Config

/-! ## As data -/

def Server.shape : Shape :=
  .record "ServerConfig" true
    [("base_url", .text), ("health_path", .text), ("run_status_path", .text),
      ("validation_status_path", .text), ("request_timeout_ms", .natural)]

def Server.ofValue : Server.shape.Value → Server
  | (base, health, run, validation, timeout, ()) =>
    let default : Server := {}
    { baseUrl := base.getD default.baseUrl
      healthPath := health.getD default.healthPath
      runStatusPath := run.getD default.runStatusPath
      validationStatusPath := validation.getD default.validationStatusPath
      requestTimeout := timeout.getD default.requestTimeout }

def Server.toValue (s : Server) : Server.shape.Value :=
  (some s.baseUrl, some s.healthPath, some s.runStatusPath, some s.validationStatusPath,
    some s.requestTimeout, ())

def Polling.shape : Shape :=
  .record "PollingConfig" true
    [("server_interval_ms", .natural), ("run_status_interval_ms", .natural),
      ("validation_status_interval_ms", .natural)]

def Polling.ofValue : Polling.shape.Value → Polling
  | (server, run, validation, ()) =>
    let default : Polling := {}
    { server := server.getD default.server
      runStatus := run.getD default.runStatus
      validationStatus := validation.getD default.validationStatus }

def Polling.toValue (p : Polling) : Polling.shape.Value :=
  (some p.server, some p.runStatus, some p.validationStatus, ())

def settingsShape : Shape :=
  .record "SettingsConfig" false
    [("scenarios_directory", .optional .text), ("gridpath_database", .optional .text),
      ("python_environment", .optional .text)]

def settingsOfValue : settingsShape.Value → Setting.Snapshot
  | (s, g, p, ()) => ⟨s.join, g.join, p.join⟩

/-- The data for the settings; one without a value is left out. -/
def settingsToValue (s : Setting.Snapshot) : settingsShape.Value :=
  (s.scenariosDirectory.map some, s.gridpathDatabase.map some, s.pythonEnvironment.map some, ())

def shape : Shape :=
  .record "StatusboardConfig" true
    [("server", Server.shape), ("polling", Polling.shape), ("settings", settingsShape)]

def ofValue : shape.Value → Config
  | (server, polling, settings, ()) =>
    { server := (server.map Server.ofValue).getD {}
      polling := (polling.map Polling.ofValue).getD {}
      settings := (settings.map settingsOfValue).getD {} }

def toValue (c : Config) : shape.Value :=
  (some c.server.toValue, some c.polling.toValue, some (settingsToValue c.settings), ())

theorem settingsOfValue_toValue (s : Setting.Snapshot) : settingsOfValue (settingsToValue s) = s := by
  rcases s with ⟨_ | _, _ | _, _ | _⟩ <;> rfl

theorem ofValue_toValue (c : Config) : ofValue c.toValue = c := by
  show Config.mk _ _ (settingsOfValue (settingsToValue c.settings)) = c
  rw [settingsOfValue_toValue]
  rfl

def ofText (t : String) : Except Json.Fault Config := (shape.ofText t).map ofValue

def ofJson (v : Json) : Except Mismatch Config := (shape.ofJson v).map ofValue

def toJson (c : Config) : Json := shape.toJson c.toValue

/-! ## Validation -/

/-- What is wrong with a configuration that could be read. -/
inductive Invalid where
  | blankBaseUrl
  | zeroTimeout
  | zeroInterval (field : String)
  deriving DecidableEq, Repr

def Invalid.message : Invalid → String
  | .blankBaseUrl => "Server base_url must not be empty"
  | .zeroTimeout => "Server request_timeout_ms must be greater than 0"
  | .zeroInterval field => "Polling " ++ field ++ " must be greater than 0"

/-- The base has to be more than blanks, and no time may be zero. The first fault is reported. -/
def validate (c : Config) : Except Invalid Unit :=
  if Text.trim c.server.baseUrl = "" then .error .blankBaseUrl
  else if c.server.requestTimeout = 0 then .error .zeroTimeout
  else if c.polling.server = 0 then .error (.zeroInterval "server_interval_ms")
  else if c.polling.runStatus = 0 then .error (.zeroInterval "run_status_interval_ms")
  else if c.polling.validationStatus = 0 then .error (.zeroInterval "validation_status_interval_ms")
  else .ok ()

theorem validate_eq_ok_iff {c : Config} : c.validate = .ok () ↔
    Text.trim c.server.baseUrl ≠ "" ∧ c.server.requestTimeout ≠ 0 ∧ c.polling.server ≠ 0 ∧
      c.polling.runStatus ≠ 0 ∧ c.polling.validationStatus ≠ 0 := by
  unfold validate
  repeat' split
  all_goals simp [*]

/-! ## Sources -/

/-- The sources at the addresses of a server: its health, its runs and its validations. -/
def Server.sources (s : Server) : List Source :=
  [.remote "server" (Endpoint.join s.baseUrl s.healthPath),
    .remote "run_status" (Endpoint.join s.baseUrl s.runStatusPath),
    .remote "validation_status" (Endpoint.join s.baseUrl s.validationStatusPath)]

end Config
end Dashboard
