import Dashboard.Binary64.Basic
import Dashboard.Entries
import Dashboard.Shape.Mismatch

/-! # Values from several layers

Values of a later layer take the place of values of an earlier one. Tables are merged name by name, and names are kept in
lower case.

* `Layer.Scalar`, `Layer.Tree`: a value with the place it came from.
* `Layer.merge`: a value put over another one.
-/

namespace Dashboard.Layer
set_option autoImplicit false

inductive Scalar where
  | null
  | bool (b : Bool)
  | int (z : Int)
  | float (x : Binary64)
  | text (s : String)
  deriving DecidableEq, Repr

/-- A value and the place it came from. A table or an array that names alone brought about has no place. -/
inductive Tree where
  | leaf (origin : Option String) (v : Scalar)
  | array (origin : Option String) (items : List Tree)
  | table (origin : Option String) (entries : List (String × Tree))
  deriving Repr

namespace Tree

def origin : Tree → Option String
  | .leaf o _ => o
  | .array o _ => o
  | .table o _ => o

def found : Tree → Found
  | .leaf _ .null => .absent
  | .leaf _ (.bool b) => .boolean b
  | .leaf _ (.int z) => .integer z
  | .leaf _ (.float x) => .float x
  | .leaf _ (.text s) => .text s
  | .array .. => .list
  | .table .. => .table

end Tree

/-- A name in lower case. Every name that is asked for is ASCII, so other letters may stay. -/
def lowerName (name : String) : String := String.ofList (name.toList.map Char.toLower)

/-- What is there as a table: anything but a table gives way to an empty one. -/
def asTable : Option Tree → Option String × Entries Tree
  | some (.table origin entries) => (origin, entries)
  | _ => (none, [])

/-- What is there as an array: anything but an array gives way to an empty one. -/
def asArray : Option Tree → Option String × List Tree
  | some (.array origin items) => (origin, items)
  | _ => (none, [])

mutual

/-- A value over what is there. A table leaves what it does not name, and an empty one leaves everything; any other value
takes the place. -/
def merge (old : Option Tree) : Tree → Tree
  | .table _ [] => old.getD (.table none [])
  | .table _ (e :: es) => .table (asTable old).1 (mergeEntries (asTable old).2 (e :: es))
  | t => t

def mergeEntries (old : Entries Tree) : List (String × Tree) → Entries Tree
  | [] => old
  | (name, t) :: rest =>
    mergeEntries (Entries.put (lowerName name) (merge (old.lookup (lowerName name)) t) old) rest

end

end Dashboard.Layer
