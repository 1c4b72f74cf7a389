import ZodSchemas.FilePath
import ZodSchemas.FileTree.Fault
import ZodSchemas.Text.Utf8

namespace ZodSchemas

/-!
# File trees

A file tree holds an entry for each of its places.  A place is a path from the
root without links and without `..`; the root is always a directory.  Relative
paths are seen from the working directory.
-/

/-- The segments that lead from the root to an entry. -/
abbrev Place := List String

/-- What stands at a place. -/
inductive FileEntry where
  | directory
  | file (bytes : List UInt8)
  | link (target : String)
deriving Repr, DecidableEq

/-- The entries below the root, and the place that relative paths are seen from. -/
structure FileTree where
  workingDirectory : Place
  entries : List (Place × FileEntry)
deriving Repr, DecidableEq

namespace FileTree

/-- The working directory as a text. -/
def workingPath (tree : FileTree) : String :=
  (FilePath.fromRoot tree.workingDirectory).text

def get? (tree : FileTree) (place : Place) : Option FileEntry :=
  if place = [] then some .directory else tree.entries.lookup place

/-- Put an entry into a list of entries; one that is there is replaced where it stands. -/
def putEntry (place : Place) (entry : FileEntry) :
    List (Place × FileEntry) → List (Place × FileEntry)
  | [] => [(place, entry)]
  | (other, old) :: rest =>
      if other = place then (place, entry) :: rest else (other, old) :: putEntry place entry rest

def put (tree : FileTree) (place : Place) (entry : FileEntry) : FileTree :=
  { tree with entries := putEntry place entry tree.entries }

/-- Remove a place with everything below it. -/
def remove (tree : FileTree) (place : Place) : FileTree :=
  { tree with entries := tree.entries.filter fun entry => !place.isPrefixOf entry.1 }

/-- Remove everything below a place. -/
def removeBelow (tree : FileTree) (place : Place) : FileTree :=
  { tree with
    entries := tree.entries.filter fun entry => entry.1 == place || !place.isPrefixOf entry.1 }

/-- The names of the entries directly in a directory. -/
def names (tree : FileTree) (place : Place) : List String :=
  (tree.entries.filter fun entry => entry.1.dropLast == place && !entry.1.isEmpty).filterMap
    fun entry => entry.1.getLast?

/-- The most bytes that a name may have. -/
def nameLimit : Nat := 255

/-- The number of links that may be followed on the way to one entry. -/
def linkLimit : Nat := 40

/-- The most bytes that a whole path may have. -/
def pathLimit : Nat := 4095

/-- A place that a path leads to: it holds an entry, or could hold one. -/
structure Located where
  place : Place
  entry : Option FileEntry
deriving Repr, DecidableEq

/-- What a path is followed for: the entry that it names, be that a link; what it leads to; or a
file to be made there. -/
inductive Access where
  | entry
  | target
  | creation
deriving Repr, DecidableEq

/-- The segments of the target of a link; an empty one at its end stands for a slash there, which
only a directory may have. -/
def linkSegments (target : String) : List String :=
  Path.segments target ++ (if target.toList.getLast? == some '/' then [""] else [])

/-- Where a link leads from: the root, or the directory that holds the link. -/
def linkBase (directory : Place) (target : String) : Place :=
  if Path.isAbsolute target then [] else directory

def follow (tree : FileTree) (access : Access) (links : Nat) (directory : Place)
    (names : List String) : Except Refusal Located :=
  match names with
  | [] => .ok ⟨directory, tree.get? directory⟩
  | name :: rest =>
      if name = "." ∨ name = "" then
        tree.follow access links directory rest
      else if name = ".." then
        tree.follow access links directory.dropLast rest
      else if access = .creation ∧ rest = [""] then
        .error .isDirectory
      else if nameLimit < Text.nameSize name then
        .error .nameTooLong
      else
        let place := directory ++ [name]
        match tree.get? place with
        | none => if rest.isEmpty then .ok ⟨place, none⟩ else .error .missing
        | some .directory => tree.follow access links place rest
        | some (.file bytes) =>
            if rest.isEmpty then .ok ⟨place, some (.file bytes)⟩ else .error .notDirectory
        | some (.link target) =>
            if rest.isEmpty && access == .entry then
              .ok ⟨place, some (.link target)⟩
            else
              match links with
              | 0 => .error .tooManyLinks
              | fewer + 1 =>
                  tree.follow access fewer (linkBase directory target)
                    (linkSegments target ++ rest)
termination_by (links, names.length)

def startOf (tree : FileTree) (path : FilePath) : Place :=
  if path.isAbsolute then [] else tree.workingDirectory

/-- Find the place that a path leads to. -/
def locate (tree : FileTree) (access : Access) (path : FilePath) : Except FileFault Located :=
  if !Text.isNameable path.text then
    .error .notUnicode
  else if path.text.toList.contains '\x00' then
    .error .nullByte
  else if pathLimit < Text.nameSize path.text then
    .error (.refused .nameTooLong path.text)
  else
    match tree.follow access linkLimit (tree.startOf path) path.names with
    | .ok located => .ok located
    | .error refusal => .error (.refused refusal path.text)

/-- The entry that a path leads to, none where nothing can be found. -/
def entryAt (tree : FileTree) (path : FilePath) : Except FileFault (Option FileEntry) :=
  match tree.locate .target path with
  | .ok located => .ok located.entry
  | .error (.refused .nameTooLong text) => .error (.refused .nameTooLong text)
  | .error _ => .ok none

/-- Whether a path leads to an entry. -/
def isPresent (tree : FileTree) (path : FilePath) : Except FileFault Bool :=
  (tree.entryAt path).map Option.isSome

/-- Whether a path leads to a directory. -/
def isDirectory (tree : FileTree) (path : FilePath) : Except FileFault Bool :=
  (tree.entryAt path).map (· == some .directory)

/-- Whether a path leads to a file. -/
def isFile (tree : FileTree) (path : FilePath) : Except FileFault Bool :=
  (tree.entryAt path).map fun entry =>
    match entry with
    | some (.file _) => true
    | _ => false

def readBytes (tree : FileTree) (path : FilePath) : Except FileFault (List UInt8) := do
  let located ← tree.locate .target path
  match located.entry with
  | some (.file bytes) => .ok bytes
  | some .directory => .error (.refused .isDirectory path.text)
  | some (.link _) | none => .error (.refused .missing path.text)

/-- The segments that remain when links are resolved, and whether all of them could be; `open_`
holds the links that are being resolved. -/
def resolveNames (tree : FileTree) (links : Nat) (open_ : List Place) (directory : Place)
    (names : List String) : Place × Bool :=
  match names with
  | [] => (directory, true)
  | name :: rest =>
      if name = "." then
        tree.resolveNames links open_ directory rest
      else if name = ".." then
        tree.resolveNames links open_ directory.dropLast rest
      else
        let place := directory ++ [name]
        match tree.get? place with
        | some (.link target) =>
            match links with
            | 0 => (place ++ rest, false)
            | fewer + 1 =>
                if open_.contains place then
                  (place ++ rest, false)
                else
                  match tree.resolveNames fewer (place :: open_) (linkBase directory target)
                      (Path.segments target) with
                  | (inner, true) => tree.resolveNames (fewer + 1) open_ inner rest
                  | (inner, false) => (inner ++ rest, false)
        | _ => tree.resolveNames links open_ place rest
termination_by (links, names.length)

/-- Why the first of some names that is none cannot be looked up. -/
def nameFault? (names : List String) : Option FileFault :=
  names.findSome? fun name =>
    if !Text.isNameable name then some .notUnicode
    else if name.toList.contains '\x00' then some .nullByte
    else none

/-- The absolute path without links that a path stands for. -/
def resolve (tree : FileTree) (path : FilePath) : Except FileFault FilePath :=
  match nameFault? path.names with
  | some fault => .error fault
  | none =>
    let (segments, _) :=
      tree.resolveNames (tree.entries.length + 1) [] (tree.startOf path) path.names
    let resolved := FilePath.fromRoot (Path.normalSegments true segments)
    match tree.locate .target resolved with
    | .error (.refused .tooManyLinks _) => .error .endlessLink
    | _ => .ok resolved

end FileTree

end ZodSchemas
