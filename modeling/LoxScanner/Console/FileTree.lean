import LoxScanner.Console.Path
import LoxScanner.Console.Reading

/-!
A tree of files held in memory, and reading a file from it by path.

Paths start at the root of the tree. What lies outside it is known to be a
directory and nothing more.
-/

namespace LoxScanner

/-- Files with their contents, and directories, each by its names from the root. The
directories that lead to a file need not be listed. -/
structure FileTree where
  files : List (List String × List UInt8)
  directories : List (List String)

namespace FileTree

/-- Where a path has led so far. -/
inductive Location
  | outside
  | directory (names : List String)
  | file (contents : List UInt8)

def isDirectory (tree : FileTree) (names : List String) : Bool :=
  tree.directories.any (names.isPrefixOf ·) ||
    tree.files.any (names.isPrefixOf ·.1)

/-- What has the given names in the tree. -/
def find (tree : FileTree) (names : List String) : Except ReadFailure Location :=
  match tree.files.lookup names with
  | some contents => .ok (.file contents)
  | none =>
      if tree.isDirectory names then .ok (.directory names) else .error .notFound

/-- Follows one piece of a path. Nothing leads on from a file, not even an empty
piece. -/
def follow (tree : FileTree) (location : Location) (piece : String) :
    Except ReadFailure Location :=
  match location with
  | .file _ => .error .notADirectory
  | .outside =>
      if Path.staysHere piece || piece == ".." then .ok .outside
      else .error .notFound
  | .directory names =>
      if Path.staysHere piece then .ok (.directory names)
      else if piece = ".." then
        .ok (if names.isEmpty then .outside else .directory names.dropLast)
      else tree.find (names ++ [piece])

/-- The place a path leads to. The empty path leads nowhere. -/
def resolve (tree : FileTree) (path : String) : Except ReadFailure Location :=
  if path = "" then .error .notFound
  else
    let start := if Path.isAbsolute path then .outside else .directory []
    (Path.pieces path).foldlM tree.follow start

/-- The bytes of the file at a path. -/
def read (tree : FileTree) (path : String) : Except ReadFailure (List UInt8) := do
  match ← tree.resolve path with
  | .file contents => return contents
  | .outside => throw .isADirectory
  | .directory _ => throw .isADirectory

end FileTree

end LoxScanner
