import Dashboard.Config.Basic
import Dashboard.Session

/-! # Sessions at configured periods

* `Config.Polling.session`: the session that samples three sources at the periods of a configuration.
-/

namespace Dashboard.Config
set_option autoImplicit false

/-- The session that samples three sources of the world at these periods. It is not active yet. -/
def Polling.session (p : Polling) (server runStatus validationStatus : Nat) : Session :=
  { server := ⟨server, p.server.toNat⟩
    runStatus := ⟨runStatus, p.runStatus.toNat⟩
    validationStatus := ⟨validationStatus, p.validationStatus.toNat⟩ }

end Dashboard.Config
