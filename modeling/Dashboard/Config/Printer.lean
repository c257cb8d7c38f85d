import Dashboard.Config.Basic
import Dashboard.Shape.OfToml
import Dashboard.Toml.Printer
import Dashboard.Toml.Reader

/-! # Configurations as TOML

* `Config.sections`: the sections of a configuration, every header present and absent settings left out.
* `Config.toToml`: its text.
* `Config.ofToml?`: a text as a configuration.
-/

namespace Dashboard.Config
set_option autoImplicit false

def settingEntries (s : Setting.Snapshot) : List (String × Toml.Leaf) :=
  Setting.all.filterMap fun k => (s.get k).map fun v => (k.name, .text v)

def sections (c : Config) : List Toml.Section :=
  [{ name := "server"
     entries :=
      [("base_url", .text c.server.baseUrl), ("health_path", .text c.server.healthPath),
        ("run_status_path", .text c.server.runStatusPath),
        ("validation_status_path", .text c.server.validationStatusPath),
        ("request_timeout_ms", .natural c.server.requestTimeout.toNat)] },
    { name := "polling"
      entries :=
        [("server_interval_ms", .natural c.polling.server.toNat),
          ("run_status_interval_ms", .natural c.polling.runStatus.toNat),
          ("validation_status_interval_ms", .natural c.polling.validationStatus.toNat)] },
    { name := "settings", entries := settingEntries c.settings }]

def toToml (c : Config) : Except Toml.Unwritable String := Toml.render c.sections

def ofToml? (t : String) : Option Config :=
  ((Toml.parse? t).bind fun entries => shape.ofToml? (.table entries)).map ofValue

end Dashboard.Config
