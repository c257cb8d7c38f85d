import Dashboard.Failure
import Dashboard.Text.Blank
import Dashboard.Json.Reader
import Dashboard.Json.Printer

/-! # What the scenario server answers

* `Response.label`: a health check is a label, bare or as a JSON string.
* `Response.table`: a run or validation status is a JSON list of lists; each cell becomes a text.
-/

namespace Dashboard.Response
set_option autoImplicit false

/-- The label in a body: after trimming, the value of a JSON string if that is all there is, and else the text
itself. -/
def label (source body : String) : Except Failure String :=
  let trimmed := Text.trim body
  let found := match Json.parse trimmed with
    | .ok (.text s) => s
    | _ => trimmed
  if found = "" then .error (.malformed source "empty status label") else .ok found

/-- The text of a cell: nothing for null, a string as it is, and compact JSON for all else. -/
def cell : Json → String
  | .null => ""
  | .text s => s
  | v => v.render

def rowsFrom (source : String) : Nat → List Json → Except Failure (List (List String))
  | _, [] => .ok []
  | n, .array cells :: rest => (rowsFrom source (n + 1) rest).map (cells.map cell :: ·)
  | n, other :: _ =>
    .error (.malformed source ("row " ++ toString n ++ " is not an array: " ++ other.render))

/-- The rows of a table. The first row that is not a list is reported. -/
def table (source : String) : Json → Except Failure (List (List String))
  | .array rows => rowsFrom source 0 rows
  | _ => .error (.malformed source "expected an array of rows")

end Dashboard.Response
