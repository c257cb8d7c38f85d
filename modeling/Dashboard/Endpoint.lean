import Dashboard.Endpoint.Host
import Dashboard.Failure
import Dashboard.Text.Blank

/-! # Addresses of the scenario server

* `Endpoint.join`: a base and a path with one slash between them.
* `Endpoint.isAddress`: whether a text is an address that can be asked over HTTP.
* `Endpoint.request`: why a request was never answered.
-/

namespace Dashboard.Endpoint
set_option autoImplicit false

/-- A base without its trailing slashes, one slash, and a path without its leading slashes. -/
def join (base path : String) : String :=
  String.ofList
    (Text.stripEnd (· == '/') base.toList ++ '/' :: Text.stripStart (· == '/') path.toList)

/-! ## Addresses -/

/-- The digits of a port, which is below `2 ^ 16`, or nothing. -/
def isPort (cs : List Char) : Bool :=
  cs.all Char.isDigit && Text.digitsValue 10 cs < 65536

def isAuthority (cs : List Char) : Bool :=
  match cs with
  | '[' :: rest =>
    match rest.dropWhile (· ≠ ']') with
    | [] => false
    | _ :: after =>
      Host.isGrouped (rest.takeWhile (· ≠ ']')) &&
        (match after with
          | [] => true
          | ':' :: port => isPort port
          | _ => false)
  | _ =>
    Host.isName (Host.unescape (cs.takeWhile (· ≠ ':'))) && isPort ((cs.dropWhile (· ≠ ':')).drop 1)

/-- An absolute address of a web server: its scheme, slashes, and a host with or without a port. -/
def isAddress (s : String) : Bool :=
  let cs := (Text.strip (fun c => c.toNat ≤ 0x20) s.toList).filter fun c => c ∉ ['\t', '\n', '\r']
  let scheme := String.ofList ((cs.takeWhile (· ≠ ':')).map Char.toLower)
  let isSlash (c : Char) : Bool := c == '/' || c == '\\'
  match cs.dropWhile (· ≠ ':') with
  | [] => false
  | _ :: rest =>
    let rest := rest.dropWhile isSlash
    let authority := rest.takeWhile fun c => !(isSlash c || c == '?' || c == '#')
    (scheme == "http" || scheme == "https") &&
      isAuthority ((Host.splitAt '@' authority).getLast?.getD [])

def request (address : String) : RequestFault :=
  if isAddress address then .refused address else .badAddress

end Dashboard.Endpoint
