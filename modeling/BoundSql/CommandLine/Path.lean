/-!
# Paths

The directory of a file, and a path as seen from a directory. Parts are set apart by slashes;
`.` after a slash and repeated slashes do not count.
-/

namespace BoundSql

namespace Path

def isAbsolute (path : String) : Bool := path.toList.head? == some '/'

/-- Drops slashes and dots that do not count from the end of a path, given backwards. -/
def dropTrailing : List Char → List Char
  | ['/'] => ['/']
  | '/' :: cs => dropTrailing cs
  | '.' :: '/' :: cs => dropTrailing ('/' :: cs)
  | cs => cs

/-- The directory that a path stands in; the root and the empty path stand in none. -/
def parent? (path : String) : Option String :=
  match dropTrailing path.toList.reverse with
  | [] => none
  | ['/'] => none
  | cs => some (String.ofList (dropTrailing (cs.dropWhile (· != '/'))).reverse)

/-- A path as seen from a directory. -/
def join (directory path : String) : String :=
  if isAbsolute path then path
  else
    match directory.toList.getLast? with
    | none => path
    | some '/' => directory ++ path
    | some _ => directory ++ "/" ++ path

end Path

end BoundSql
