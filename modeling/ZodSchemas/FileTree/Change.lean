import ZodSchemas.FileTree.Basic

namespace ZodSchemas

/-!
# Changes of a file tree

A change keeps what it has done before a fault: directories made on the way to
one that cannot be made remain.  A file that is replaced as a whole takes the
place of a link; a file that is written in place is reached through links.
-/

/-- A step that changes a file tree and may find a fault. -/
abbrev Change (α : Type) := ExceptT FileFault (StateM FileTree) α

namespace Change

/-- Run a step; what it has done before a fault remains. -/
def attempt (change : Change α) : Change (Except FileFault α) :=
  tryCatch (change.map .ok) fun fault => pure (.error fault)

/-- Answer a question about the tree. -/
def ask (question : FileTree → Except FileFault α) : Change α := do
  match question (← get) with
  | .ok answer => pure answer
  | .error fault => throw fault

def put (place : Place) (entry : FileEntry) : Change Unit :=
  modify fun tree => tree.put place entry

/-- Make a directory where nothing stands. -/
def makeDirectory (path : FilePath) : Change Unit := do
  let located ← ask fun tree => tree.locate .entry path
  match located.entry with
  | none => put located.place .directory
  | some _ => throw (.refused .occupied path.text)

/-- Accept that a directory cannot be made if one is there. -/
def acceptDirectory (path : FilePath) (fault : FileFault) : Change Unit := do
  if fault.isRefused then
    if ← ask fun tree => tree.isDirectory path then
      return
  throw fault

/-- Whether a fault says that something on the way is missing. -/
def isMissing : FileFault → Bool
  | .refused .missing _ => true
  | _ => false

/-- Make a directory unless it is there; `names` are the segments in reverse, and directories that
are missing on the way are made first. -/
def makeDirectoriesTo (slashes : Nat) (names : List String) : Change Unit := do
  let path : FilePath := ⟨slashes, names.reverse⟩
  match ← attempt (makeDirectory path) with
  | .ok _ => pure ()
  | .error fault =>
      match isMissing fault, names with
      | true, _ :: outer =>
          makeDirectoriesTo slashes outer
          match ← attempt (makeDirectory path) with
          | .ok _ => pure ()
          | .error fault =>
              if isMissing fault then throw fault else acceptDirectory path fault
      | true, [] => throw fault
      | false, _ => acceptDirectory path fault

/-- Make a directory with those above it, unless they are there. -/
def ensureDirectory (path : FilePath) : Change Unit :=
  makeDirectoriesTo path.slashes path.names.reverse

def writeInPlace (path : FilePath) (bytes : List UInt8) : Change Unit := do
  let located ← ask fun tree => tree.locate .creation path
  match located.entry with
  | some .directory => throw (.refused .isDirectory path.text)
  | some (.file _) | some (.link _) | none => put located.place (.file bytes)

/-- How many bytes the name of a temporary file is longer than that of the file it is for. -/
def temporaryExtra : Nat := 14

/-- The place of a file that can be replaced by a temporary one beside it. -/
def replaceable? (tree : FileTree) (path : FilePath) : Option Place :=
  if FileTree.nameLimit < Text.nameSize path.name + temporaryExtra then none
  else
    match tree.locate .entry path with
    | .ok ⟨place, entry⟩ => if entry = some .directory then none else some place
    | .error _ => none

/-- Replace a file as a whole, or write it in place where that is impossible. -/
def replaceFile (path : FilePath) (bytes : List UInt8) : Change Unit := do
  match replaceable? (← get) path with
  | some place => put place (.file bytes)
  | none => writeInPlace path bytes

/-- The names that a clean directory may keep. -/
def preservedNames : List String :=
  [".git", ".gitignore", ".gitkeep"]

/-- What is reported about an entry that remains. -/
def remainder (path : FilePath) (reason : String) : String :=
  "Could not remove " ++ path.text ++ ": " ++ reason

/-- Why an entry of a directory cannot be removed: it is a link to a directory, or its link leads
to an impossible name. -/
def hindrance? (tree : FileTree) (place : Place) (path : FilePath) : Option String :=
  match tree.get? place with
  | some (.link _) =>
      match tree.isDirectory path with
      | .ok true => some "Cannot call rmtree on a symbolic link"
      | .ok false => none
      | .error fault => some fault.message
  | _ => none

/-- Whether a path still leads to a directory. -/
def leadsToDirectory (tree : FileTree) (path : FilePath) : Bool :=
  match tree.isDirectory path with
  | .ok isDirectory => isDirectory
  | .error _ => false

/-- What is reported about an entry that its path no longer leads to. -/
def outOfReach (path : FilePath) : String :=
  remainder path (FileFault.refused .missing path.text).message

/-- Remove an entry of a directory, or report why it remains.  What stands below an entry goes
first; the path of the directory may lead through it, and then the entry itself is out of reach. -/
def removeEntry (directory : FilePath) (place : Place) (name : String) : Change (List String) := do
  let path := { directory with names := directory.names ++ [name] }
  match hindrance? (← get) (place ++ [name]) path with
  | some reason => pure [remainder path reason]
  | none =>
      if !leadsToDirectory (← get) directory then
        pure [outOfReach path]
      else
        modify fun tree => tree.removeBelow (place ++ [name])
        if !leadsToDirectory (← get) directory then
          pure [outOfReach path]
        else
          modify fun tree => tree.remove (place ++ [name])
          pure []

def directoryPlace (path : FilePath) (tree : FileTree) : Except FileFault Place := do
  let located ← tree.locate .target path
  match located.entry with
  | some .directory => .ok located.place
  | some _ => .error (.refused .notDirectory path.text)
  | none => .error (.refused .missing path.text)

/-- Remove the entries of a directory other than the preserved ones, and report those that
remain. -/
def cleanDirectory (path : FilePath) : Change (List String) := do
  if !(← ask fun tree => tree.isPresent path) then
    pure []
  else
    let place ← ask (directoryPlace path)
    let names := ((← get).names place).filter fun name => !preservedNames.contains name
    let reports ← names.mapM (removeEntry path place)
    pure reports.flatten

end Change

end ZodSchemas
