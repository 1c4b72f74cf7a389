import ZodSchemas.Text.Parts

namespace ZodSchemas.Path

/-!
# Paths as text

Paths have segments between slashes.  A normal path has no empty segment, no
segment `.`, and a segment `..` only at the front of a relative path; exactly
two leading slashes are kept as they are.  A relative path is computed from the
normal absolute forms of both ends.
-/

/-- The segments of a path, without empty ones. -/
def segments (path : String) : List String :=
  ((Text.partsAt '/' path.toList).filter (· ≠ [])).map String.ofList

/-- How many leading slashes a normal form keeps: two, one or none. -/
def rootSlashes (path : String) : Nat :=
  match path.toList with
  | '/' :: '/' :: '/' :: _ => 1
  | '/' :: '/' :: _ => 2
  | '/' :: _ => 1
  | _ => 0

/-- Whether a path starts at the root. -/
def isAbsolute (path : String) : Bool :=
  path.toList.head? == some '/'

/-- Append a segment to the reversed segments of a normal path. -/
def pushSegment (rooted : Bool) (reversed : List String) (segment : String) : List String :=
  if segment = "." then
    reversed
  else if segment = ".." then
    match reversed with
    | [] => if rooted then [] else [".."]
    | last :: earlier => if last = ".." then ".." :: reversed else earlier
  else
    segment :: reversed

def normalSegments (rooted : Bool) (names : List String) : List String :=
  (names.foldl (pushSegment rooted) []).reverse

/-- A path with a number of leading slashes; without anything it is the current directory. -/
def ofSegments (slashes : Nat) (names : List String) : String :=
  if slashes = 0 ∧ names.isEmpty then "."
  else String.ofList (List.replicate slashes '/') ++ "/".intercalate names

def normalize (path : String) : String :=
  let slashes := rootSlashes path
  ofSegments slashes (normalSegments (slashes != 0) (segments path))

/-- A path below a directory; an absolute path stays what it is. -/
def join (directory path : String) : String :=
  if isAbsolute path then path
  else if directory.isEmpty ∨ directory.toList.getLast? = some '/' then directory ++ path
  else directory ++ "/" ++ path

/-- The text behind the last slash. -/
def baseName (path : String) : String :=
  String.ofList ((Text.partsAt '/' path.toList).getLast?.getD [])

/-- The normal absolute form of a path as seen from a working directory. -/
def absolute (workingDirectory path : String) : String :=
  normalize (if isAbsolute path then path else join workingDirectory path)

/-- How many segments two lists have in common at their front. -/
def sharedLength : List String → List String → Nat
  | first :: rest, other :: others =>
      if first = other then sharedLength rest others + 1 else 0
  | _, _ => 0

/-- The segments that lead from one directory to a target: up out of what is not shared, then down. -/
def climb (start target : List String) : List String :=
  let shared := sharedLength start target
  List.replicate (start.length - shared) ".." ++ target.drop shared

/-- The path from a directory to a non-empty target. -/
def relative? (workingDirectory start target : String) : Option String :=
  if target.isEmpty then
    none
  else
    some (ofSegments 0
      (climb (segments (absolute workingDirectory start))
        (segments (absolute workingDirectory target))))

/-- The relative path in the form of a module specifier, which starts with a point. -/
def specifier? (workingDirectory start target : String) : Option String :=
  (relative? workingDirectory start target).map fun path =>
    if path.toList.head? = some '.' then path else "./" ++ path

end ZodSchemas.Path
