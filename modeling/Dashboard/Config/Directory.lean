import Dashboard.Config.File
import Dashboard.Entries

/-! # Directories held in memory

* `Config.Directory`: the files below a working directory.
* `Config.Directory.read?`: what stands in the file at a path.
-/

namespace Dashboard.Config
set_option autoImplicit false

abbrev Directory := Entries String

namespace Directory

/-- Where the parts of a path lead from a directory. Every directory on the way has to be there, and none lies above the
working directory. -/
def follow? (isThere : List String → Bool) : List String → List String → Option (List String)
  | here, [] => some here
  | here, ".." :: rest => if here = [] then none else follow? isThere here.dropLast rest
  | here, [p] => some (here ++ [p])
  | here, p :: rest => if isThere (here ++ [p]) then follow? isThere (here ++ [p]) rest else none

def contains (d : Directory) (parts : List String) : Bool :=
  d.any fun f => (pathParts f.1).dropLast.take parts.length == parts

def read? (d : Directory) (path : String) : Option String :=
  if path.startsWith "/" then none
  else
    (follow? d.contains [] (pathParts path)).bind fun target =>
      (d.find? fun f => pathParts f.1 == target).map (·.2)

end Directory
end Dashboard.Config
