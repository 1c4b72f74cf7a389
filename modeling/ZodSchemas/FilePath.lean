import ZodSchemas.Path
import ZodSchemas.Text.Case

namespace ZodSchemas

/-!
# File paths

A file path keeps its segments as they are written, `..` included, because a
link may stand before it; only empty segments and `.` are dropped.
-/

/-- A path to a file: how many slashes it starts with, and its segments. -/
structure FilePath where
  slashes : Nat
  names : List String
deriving Repr, DecidableEq

namespace FilePath

def ofText (text : String) : FilePath :=
  ⟨Path.rootSlashes text, (Path.segments text).filter (· ≠ ".")⟩

/-- The path from the root with some segments. -/
def fromRoot (names : List String) : FilePath :=
  ⟨1, names⟩

/-- Write a path; without anything it is the current directory. -/
def text (path : FilePath) : String :=
  Path.ofSegments path.slashes path.names

/-- Whether a path starts at the root. -/
def isAbsolute (path : FilePath) : Bool :=
  path.slashes != 0

/-- The last segment; a path without segments has the empty name. -/
def name (path : FilePath) : String :=
  path.names.getLastD ""

/-- The path without its last segment. -/
def parent (path : FilePath) : FilePath :=
  { path with names := path.names.dropLast }

/-- A path as seen from a directory; an absolute one stays what it is. -/
def below (directory path : FilePath) : FilePath :=
  if path.isAbsolute then path else { directory with names := directory.names ++ path.names }

/-- The last point of a name with what follows it, if something stands on both sides of it. -/
def extension (path : FilePath) : String :=
  let reversed := path.name.toList.reverse
  let behind := reversed.takeWhile (· != '.')
  let before := (reversed.drop behind.length).drop 1
  if behind.isEmpty ∨ before.isEmpty then "" else String.ofList ('.' :: behind.reverse)

/-- The extension in lower case. -/
def fileType (path : FilePath) : String :=
  Text.lowerCase path.extension

end FilePath

end ZodSchemas
