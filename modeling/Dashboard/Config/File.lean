import Dashboard.Layer.Document

/-! # Finding the configuration file

A file is named with its ending or without it. What stands in a file is asked of a reader, which knows the files there are.

* `Config.pieces`, `Config.pathParts`: what stands between the cuts of a text, and between the slashes of a path.
* `Config.shownPath`: a path without the parts that lead nowhere.
* `Config.File`: a configuration file that was found.
* `Config.File.find?`: the file that a path means.
* `Config.File.candidates`: all paths at which it is looked for.
-/

namespace Dashboard.Config
set_option autoImplicit false

/-- A text cut at each place where the character stands. -/
def pieces (c : Char) (s : String) : List String := (s.toList.splitOn c).map String.ofList

/-- The parts of a path; an empty part and a single dot lead nowhere. -/
def pathParts (path : String) : List String :=
  (pieces '/' path).filter fun p => p ≠ "" ∧ p ≠ "."

def shownPath (path : String) : String :=
  (if path.startsWith "/" then "/" else "") ++ "/".intercalate (pathParts path)

/-- The path names what may be a file: it does not end in an empty part or in a single dot. -/
def endsInName (path : String) : Bool :=
  match (pieces '/' path).getLast? with
  | some last => last != "" && last != "."
  | none => false

/-- The ending of a file's name: what follows its last dot, if something stands before that dot. -/
def ending? (name : String) : Option String :=
  match (pieces '.' name).reverse with
  | last :: before :: more => if before = "" ∧ more = [] then none else some last
  | _ => none

/-- A configuration file that was found: its path, its format, and what it holds. -/
structure File where
  path : String
  format : Layer.Format
  text : String
  deriving DecidableEq, Repr

namespace File

/-- The path with the ending of a format added to its last name, if it has one. -/
def pathWith? (path : String) (format : Layer.Format) : Option String :=
  match (pathParts path).getLast? with
  | none | some ".." => none
  | some _ => some (shownPath path ++ "." ++ format.ending)

def candidates (path : String) : List String :=
  shownPath path :: Layer.Format.all.filterMap (pathWith? path)

/-- The file that a path means. A file at the path itself counts only if its ending is that of a format; if there is none,
the endings of the formats are added in turn. -/
def find? (read : String → Option String) (path : String) : Option File :=
  match if endsInName path then read (shownPath path) else none with
  | some text =>
    (((pathParts path).getLast?.bind ending?).bind Layer.Format.ofEnding?).map fun format =>
      ⟨shownPath path, format, text⟩
  | none =>
    Layer.Format.all.findSome? fun format =>
      (pathWith? path format).bind fun p => (read p).map fun text => ⟨p, format, text⟩

end File
end Dashboard.Config
