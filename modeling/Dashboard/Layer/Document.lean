import Dashboard.Layer.Tree
import Dashboard.Word
import Dashboard.Toml.Reader
import Dashboard.Json.Reader

/-! # Documents as layers

A document is TOML or JSON, the two formats in which the dashboard is set up. The library that reads layers for it also
knows YAML, INI, RON and JSON5, by the endings `yaml`, `yml`, `ini`, `ron` and `json5`. These are left out: a file with
such an ending is taken for one of an unknown format here, and is not looked for.

* `Layer.Format`: the formats of documents, with the endings of their files.
* `Layer.ofDocument?`: the named values of a document.
-/

namespace Dashboard.Layer
set_option autoImplicit false

/-- The formats that are read. YAML, INI, RON and JSON5 are left out. -/
inductive Format where
  | toml
  | json
  deriving DecidableEq, Repr

namespace Format

/-- The formats in the order in which a file of either is looked for. -/
def all : List Format := [toml, json]

def ending : Format → String
  | .toml => "toml"
  | .json => "json"

def ofEnding? (ending : String) : Option Format := all.find? fun f => f.ending = ending

end Format

mutual

/-- A TOML value from a place. A date is its text. -/
def ofToml (place : String) : Toml → Tree
  | .text s => .leaf (some place) (.text s)
  | .int z => .leaf (some place) (.int z)
  | .float x => .leaf (some place) (.float x)
  | .bool b => .leaf (some place) (.bool b)
  | .date s => .leaf (some place) (.text s)
  | .array items => .array (some place) (itemsOfToml place items)
  | .table entries => .table (some place) (entriesOfToml place entries)

def itemsOfToml (place : String) : List Toml → List Tree
  | [] => []
  | v :: vs => ofToml place v :: itemsOfToml place vs

def entriesOfToml (place : String) : List (String × Toml) → List (String × Tree)
  | [] => []
  | (k, v) :: rest => (k, ofToml place v) :: entriesOfToml place rest

end

/-- An integer of 64 bits with a sign, and the nearest float for a larger one. -/
def ofInteger (z : Int) : Scalar := if z < (Word.signedBound : Int) then .int z else .float (Binary64.ofInt z)

mutual

def ofJson (place : String) : Json → Tree
  | .null => .leaf (some place) .null
  | .bool b => .leaf (some place) (.bool b)
  | .int z => .leaf (some place) (ofInteger z)
  | .float x => .leaf (some place) (.float x)
  | .text s => .leaf (some place) (.text s)
  | .array items => .array (some place) (itemsOfJson place items)
  | .object members => .table (some place) (entriesOfJson place members)

def itemsOfJson (place : String) : List Json → List Tree
  | [] => []
  | v :: vs => ofJson place v :: itemsOfJson place vs

def entriesOfJson (place : String) : List (String × Json) → List (String × Tree)
  | [] => []
  | (k, v) :: rest => (k, ofJson place v) :: entriesOfJson place rest

end

def ofDocument? (format : Format) (place text : String) : Option (Entries Tree) :=
  match format with
  | .toml => (Toml.parse? text).map (entriesOfToml place)
  | .json =>
    match Json.parse text with
    | .ok (.object members) => some (entriesOfJson place members)
    | _ => none

end Dashboard.Layer
