import Dashboard.Binary64.Basic

/-! # JSON values

* `Json`: a value. A number that is an integer of at most 64 bits stays one; all others are binary64.
* `Json.put`: one member into a list of members that ascends by key; the last of equal keys wins.
* `Json.find?`: the value of a key.
-/

namespace Dashboard
set_option autoImplicit false

inductive Json where
  | null
  | bool (b : Bool)
  | int (z : Int)
  | float (x : Binary64)
  | text (s : String)
  | array (items : List Json)
  | object (members : List (String × Json))
  deriving Repr

namespace Json

/-- Puts a member where its key belongs; a member of the same key is replaced. Keys ascend by code point. -/
def put (key : String) (value : Json) : List (String × Json) → List (String × Json)
  | [] => [(key, value)]
  | (k, v) :: rest =>
    if key < k then (key, value) :: (k, v) :: rest
    else if key = k then (key, value) :: rest
    else (k, v) :: put key value rest

def find? (key : String) (members : List (String × Json)) : Option Json := members.lookup key

end Json
end Dashboard
