/-!
# File paths

A path is split at its slashes into parts; empty parts and single dots stand for
nothing.  The stem of a path is its last part without its extension, which begins at
the last dot unless that is the first character.  A path whose last part leads
upwards, or which has no parts, has no stem.
-/

set_option autoImplicit false

namespace SyntaxGraph.Path

def parts (path : String) : List String :=
  ((path.toList.splitOn '/').map String.ofList).filter fun part => part ≠ "" && part ≠ "."

/-- A file name without its extension. -/
def stemOf (name : String) : String :=
  let reversed := name.toList.reverse
  match reversed.dropWhile (· ≠ '.') with
  | [] => name
  | _ :: stem => if stem.isEmpty then name else String.ofList stem.reverse

/-- The stem of a path; empty if there is none. -/
def stem (path : String) : String :=
  match (parts path).getLast? with
  | none => ""
  | some name => if name = ".." then "" else stemOf name

def isAbsolute (path : String) : Bool := path.toList.head? = some '/'

/-- `path` as seen from `base`: an absolute path stays what it is. -/
def join (base path : String) : String :=
  if isAbsolute path then path
  else if base.isEmpty || base.toList.getLast? = some '/' then base ++ path
  else base ++ "/" ++ path

end SyntaxGraph.Path
