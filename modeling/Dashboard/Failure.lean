import Dashboard.Text.Quoted

/-! # Failures

* `Failure`: why a status, a snapshot or a configuration could not be had.
* `Failure.message`: the sentence for a failure.
* `Failure.describe`: the form that names the kind and its parts.
-/

namespace Dashboard
set_option autoImplicit false

/-- Why a request was never answered: its address is none, or nothing listens there. -/
inductive RequestFault where
  | badAddress
  | refused (address : String)
  deriving DecidableEq, Repr

def RequestFault.message : RequestFault → String
  | .badAddress => "builder error"
  | .refused address => "error sending request for url (" ++ address ++ ")"

inductive Failure where
  | configuration (text : String)
  | malformed (sender details : String)
  | source (name message : String)
  | settings (message : String)
  | request (fault : RequestFault)
  deriving DecidableEq, Repr

namespace Failure

def message : Failure → String
  | .configuration text => "Configuration error: " ++ text
  | .malformed sender details => "Malformed response from " ++ sender ++ ": " ++ details
  | .source name message => "Source " ++ name ++ " failed: " ++ message
  | .settings message => "Settings store error: " ++ message
  | .request fault => "HTTP error: " ++ fault.message

private def parts (kind : String) (fields : List (String × String)) : String :=
  kind ++ " \x7b " ++ ", ".intercalate (fields.map fun f => f.1 ++ ": " ++ Text.quoted f.2) ++ " \x7d"

def describe : Failure → String
  | .configuration text => "Config(" ++ text ++ ")"
  | .malformed sender details =>
    parts "MalformedResponse" [("source_name", sender), ("details", details)]
  | .source name message => parts "Source" [("source_name", name), ("message", message)]
  | .settings message => parts "Settings" [("message", message)]
  | .request fault => "Http(" ++ fault.message ++ ")"

end Failure
end Dashboard
