/-!
# Paths

Paths of files, as far as a configuration needs them: a relative path in a
configuration file starts from the directory of that file.
-/

namespace QuantityQuery.Path

/-- The path starts from the root. -/
def isAbsolute (path : String) : Bool := path.toList.head? = some '/'

/-- A path from its end to its beginning, without separators and single points at its end. -/
def dropSeparators : List Char → List Char
  | '/' :: rest => dropSeparators rest
  | '.' :: '/' :: rest => dropSeparators rest
  | path => path

/-- The characters of a path up to the separator before its last name. -/
def dropName (path : List Char) : List Char :=
  (dropSeparators (path.reverse.dropWhile (· ≠ '/'))).reverse

/-- The directory of a file. It is empty for a name alone, and the root for a name in the root. -/
def directory (path : String) : String :=
  match dropName path.toList with
  | [] => if isAbsolute path then "/" else ""
  | dir => String.ofList dir

/-- A path, started from a directory unless it is absolute. -/
def join (dir path : String) : String :=
  if isAbsolute path || dir = "" then path
  else if dir.toList.getLast? = some '/' then dir ++ path
  else dir ++ "/" ++ path

end QuantityQuery.Path
