/-!
Paths: names with slashes between them.
-/

namespace LoxScanner

namespace Path

/-- The names between a path's slashes. Some may be empty. -/
def pieces (path : String) : List String :=
  (path.toList.splitOn '/').map String.ofList

/-- Whether a piece leads nowhere else. -/
def staysHere (piece : String) : Bool :=
  piece == "" || piece == "."

/-- The pieces of a path that lead somewhere else. -/
def steps (path : String) : List String :=
  (pieces path).filter fun piece => !staysHere piece

def isAbsolute (path : String) : Bool :=
  path.toList.head? == some '/'

/-- The label of the file at a path: the last name, or the whole path if it ends
in no name. -/
def label (path : String) : String :=
  match (steps path).getLast? with
  | some name => if name = ".." then path else name
  | none => path

end Path

end LoxScanner
