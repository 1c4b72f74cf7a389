import Std.Time.Format
import ZodSchemas.CommandLine.Command

namespace ZodSchemas

/-!
# The command

The command works on a file tree in memory.  This module reads those parts of
the disk that a command can see into one, carries the command out, and writes
what has changed back to the disk.
-/

open CommandLine

namespace Disk

/-- What the system hands over, as a text. -/
def received (string : String) : String :=
  Text.ofChars string.toList

/-- A text as the system is handed it, in characters only. -/
def handed (text : String) : String :=
  String.ofList ((Text.codePoints (Text.withoutHalves text)).map Char.ofNat)

/-- Where a link leads to that leads nowhere. -/
def nowhere : String := "/dev/null/nowhere"

/-- A place as a path of the system. -/
def textOf (place : Place) : String :=
  handed (FilePath.fromRoot place).text

/-- An entry of the system, if something stands at a place. -/
def entryAt? (place : Place) : IO (Option FileEntry) := do
  let parent := textOf place.dropLast
  let path := (IO.FS.DirEntry.mk parent (handed (place.getLastD "."))).path
  try
    match (← path.symlinkMetadata).type with
    | .dir => pure (some .directory)
    | .symlink =>
        let target ← try pure (← IO.FS.realPath path).toString catch _ => pure nowhere
        pure (some (.link (received target)))
    | _ => pure (some (.file (← IO.FS.readBinFile path).toList))
  catch _ => pure none

/-- Add what stands at a place to a tree. -/
def see (tree : FileTree) (place : Place) : IO FileTree := do
  match tree.get? place with
  | some _ => pure tree
  | none =>
      match ← entryAt? place with
      | some entry => pure (tree.put place entry)
      | none => pure tree

/-- Add what stands on the way along segments from a place to a tree; the end of the way is
answered as well. -/
partial def seeAlong (tree : FileTree) (place : Place) (names : List String) :
    IO (FileTree × Place) := do
  match names with
  | [] => pure (tree, place)
  | ".." :: rest => seeAlong tree place.dropLast rest
  | name :: rest =>
      let next := place ++ [name]
      let tree ← see tree next
      match tree.get? next with
      | some (.link target) =>
          let (tree, last) ← seeAlong tree [] (Path.segments target)
          seeAlong tree last rest
      | _ => seeAlong tree next rest

/-- Add everything below a directory to a tree. -/
partial def seeBelow (tree : FileTree) (place : Place) : IO FileTree := do
  match tree.get? place with
  | some .directory =>
      let entries ← (IO.FS.DirEntry.mk (textOf place) ".").path.readDir
      entries.foldlM (fun tree entry => do
        let inner := place ++ [received entry.fileName]
        seeBelow (← see tree inner) inner) tree
  | _ => pure tree

/-- Add what a path leads to, and what is on the way, to a tree. -/
def seePath (tree : FileTree) (path : FilePath) : IO (FileTree × Place) :=
  seeAlong tree (tree.startOf path) path.names

/-- The tree in which arguments are carried out. -/
def treeFor (arguments : Arguments) : IO FileTree := do
  let here := Path.segments (received (← IO.currentDir).toString)
  let (tree, _) ← seeAlong ⟨here, []⟩ [] here
  let (tree, _) ← seePath tree (.ofText (arguments.metadata.value?.getD ""))
  match outputPath? tree arguments with
  | none => pure tree
  | some path =>
      let (tree, place) ← seePath tree path
      seeBelow tree place

/-- Remove an entry of the system. -/
def erase (place : Place) (entry : FileEntry) : IO Unit :=
  match entry with
  | .directory => IO.FS.removeDir (textOf place)
  | .file _ | .link _ => IO.FS.removeFile (textOf place)

/-- Put an entry into the system. -/
def write (place : Place) (entry : FileEntry) : IO Unit :=
  match entry with
  | .directory => IO.FS.createDir (textOf place)
  | .file bytes => IO.FS.writeBinFile (textOf place) (ByteArray.mk bytes.toArray)
  | .link _ => pure ()

/-- Whether an entry has to make room for a file. -/
def isReplaced (after : FileTree) (place : Place) (entry : FileEntry) : Bool :=
  match entry, after.get? place with
  | _, none => true
  | .link _, some (.file _) => true
  | _, some _ => false

/-- Bring the system from one tree to another one. -/
def update (before after : FileTree) : IO Unit := do
  let gone := before.entries.filter fun entry => isReplaced after entry.1 entry.2
  let deepestFirst := gone.mergeSort fun first second => second.1.length ≤ first.1.length
  for (place, entry) in deepestFirst do
    erase place entry
  for (place, entry) in after.entries do
    if before.get? place ≠ some entry then
      write place entry

end Disk

/-- The present time, with its offset from universal time. -/
def presentTime : IO String := do
  let now ← Std.Time.DateTime.now
  pure (now.format "uuuu-MM-dd'T'HH:mm:ssZZZ")

/-- Show an outcome, and answer its exit code. -/
def present (outcome : Outcome) : IO UInt32 := do
  IO.print (Disk.handed outcome.output)
  match outcome.usageFault with
  | some fault => IO.eprintln (Disk.handed fault.line)
  | none => pure ()
  pure (UInt32.ofNat outcome.code)

/-- Carry out arguments on the disk. -/
def performOnDisk (arguments : Arguments) : IO UInt32 := do
  let before ← Disk.treeFor arguments
  let (result, after) := (perform (← presentTime) arguments).run before
  Disk.update before after
  match result with
  | .ok outcome => present outcome
  | .error fault =>
      IO.eprintln (Disk.handed fault.message)
      pure 1

end ZodSchemas

/-- Carry out the command that the words spell. -/
def main (words : List String) : IO UInt32 :=
  match ZodSchemas.CommandLine.Arguments.ofTexts (words.map ZodSchemas.Disk.received) with
  | .ok arguments => ZodSchemas.performOnDisk arguments
  | .error ending => ZodSchemas.present (ZodSchemas.CommandLine.endingOutcome ending)
