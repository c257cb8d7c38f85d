import Dashboard.Toml.Basic
import Dashboard.Entries

/-! # Tables in the making

The entries of a table come one by one, under keys of several parts and under headers. A table may be completed only in the
way in which it was begun.

* `Toml.Making`: how a table was begun.
* `Toml.Node`: what an entry of an unfinished document is.
* `Toml.assign?`: an entry under a key of several parts.
* `Toml.Path.openTable?`, `Toml.Path.openElement?`: headers of tables and of elements of an array of tables.
* `Toml.Node.finish`: the value of a node.
-/

namespace Dashboard.Toml
set_option autoImplicit false

/-- How a table was begun: by a header of its own, by the header of a table inside it, or by a key with dots. -/
inductive Making where
  | header
  | implied
  | dotted
  deriving DecidableEq, Repr

/-- An entry of an unfinished document: a value, a table, or an array of tables whose last element is open. -/
inductive Node where
  | value (v : Toml)
  | table (making : Making) (entries : List (String × Node))
  | tables (done : List (List (String × Node))) (last : List (String × Node))

/-! ## Keys with dots -/

/-- Puts a value under a key of several parts. The tables on the way may not have headers of their own, and the last one
has to be begun by a key with dots. `isDotted` tells this of the table at hand, `isFirst` that no part was taken yet. -/
def assign? (isFirst isDotted : Bool) : List String → Toml → Entries Node → Option (Entries Node)
  | [], _, _ => none
  | [key], v, entries =>
    if isDotted = isFirst then none
    else if (entries.lookup key).isSome then none
    else some (Entries.put key (.value v) entries)
  | key :: rest, v, entries =>
    match entries.lookup key with
    | none => (assign? false true rest v []).map fun es => Entries.put key (.table .dotted es) entries
    | some (.value _) => none
    | some (.tables done last) =>
      (assign? false false rest v last).map fun es => Entries.put key (.tables done es) entries
    | some (.table making es) =>
      if making = .header then none
      else
        (assign? false (making = .dotted) rest v es).map fun es =>
          Entries.put key (.table making es) entries

/-! ## Headers -/

/-- Changes the table at a path. Tables that are missing on the way are implied by the header. -/
def within? (change : Entries Node → Option (Entries Node)) :
    List String → Entries Node → Option (Entries Node)
  | [], entries => change entries
  | key :: rest, entries =>
    match entries.lookup key with
    | none => (within? change rest []).map fun es => Entries.put key (.table .implied es) entries
    | some (.value _) => none
    | some (.tables done last) =>
      (within? change rest last).map fun es => Entries.put key (.tables done es) entries
    | some (.table making es) =>
      (within? change rest es).map fun es => Entries.put key (.table making es) entries

/-- Begins the table of a header. A table that was only implied so far may be begun; any other may not. -/
def openTable? (key : String) (entries : Entries Node) : Option (Entries Node) :=
  match entries.lookup key with
  | none => some (Entries.put key (.table .header []) entries)
  | some (.table .implied es) => some (Entries.put key (.table .header es) entries)
  | _ => none

def openElement? (key : String) (entries : Entries Node) : Option (Entries Node) :=
  match entries.lookup key with
  | none => some (Entries.put key (.tables [] []) entries)
  | some (.tables done last) => some (Entries.put key (.tables (done ++ [last]) []) entries)
  | _ => none

/-! ## Finished tables -/

mutual

def Node.finish : Node → Toml
  | .value v => v
  | .table _ entries => .table (finishEntries entries)
  | .tables done last => .array (finishTables done ++ [.table (finishEntries last)])

def finishEntries : List (String × Node) → List (String × Toml)
  | [] => []
  | (k, n) :: rest => (k, n.finish) :: finishEntries rest

def finishTables : List (List (String × Node)) → List Toml
  | [] => []
  | t :: rest => .table (finishEntries t) :: finishTables rest

end

def ofPairs? (pairs : List (List String × Toml)) : Option Toml :=
  (pairs.foldlM (fun es p => assign? true false p.1 p.2 es) ([] : Entries Node)).map fun es =>
    .table (finishEntries es)

end Dashboard.Toml
