import ZodSchemas.Export.Exporter
import ZodSchemas.Proofs.Directories

namespace ZodSchemas

/-!
# Writing files

In a tree without links it makes no difference whether a file is replaced as a
whole or written in place.  Either way the directories above it are made from
the root on, and then it is put where the last name of its path leads, unless a
directory stands there, the name is too long, or a text has no bytes.
-/

namespace FileTree

/-- How a file is aimed at its place: it can be put there, the system refuses it, or a text without
bytes ends the export. -/
inductive Aim where
  | found (place : Place)
  | refused
  | broken

/-- What a fault comes to. -/
def Aim.ofFault (fault : FileFault) : Aim :=
  if fault.isRefused then .refused else .broken

/-- Where a file can be put in a directory under the last name of its path. -/
def aimIn (tree : FileTree) (directory : Place) : Option String → Aim
  | none => .refused
  | some name =>
      match tree.stepTo directory name with
      | .ok ⟨_, some .directory⟩ => .refused
      | .ok ⟨place, _⟩ => .found place
      | .error _ => .refused

/-- Where a file can be put in the directory above it. -/
def aimFrom (tree : FileTree) (directory : Place) (path : FilePath) : Aim :=
  match path.fault? with
  | some fault => .ofFault fault
  | none => tree.aimIn directory path.names.getLast?

/-- Make the directories above the file of a path, and find its place; `whole` says whether its
content has bytes. -/
def aim (tree : FileTree) (path : FilePath) (whole : Bool) : FileTree × Aim :=
  match path.parent.fault? with
  | some fault => (tree, .ofFault fault)
  | none =>
      match tree.makeAlong [] path.names.dropLast with
      | (later, none) => (later, .refused)
      | (later, some directory) =>
          (later, if whole then later.aimFrom directory path else .broken)

/-- Put a file where it has been aimed at. -/
def hit (tree : FileTree) (bytes : List UInt8) : Aim → FileTree
  | .found place => tree.put place (.file bytes)
  | .refused | .broken => tree

variable {tree : FileTree}

/-- Without links it makes no difference what a path is followed for. -/
theorem locate_eq_locate
    (plain : tree.IsPlain)
    {path : FilePath}
    (rooted : path.IsRooted)
    (access other : Access) :
    tree.locate access path = tree.locate other path := by
  cases found : path.fault? with
  | some fault =>
      rw [tree.locate_of_fault found, tree.locate_of_fault found]
  | none =>
      rcases List.eq_nil_or_concat path.names with isRoot | ⟨outer, name, shape⟩
      · rw [locate_root rooted found isRoot, locate_root rooted found isRoot]
      · rw [List.concat_eq_append] at shape
        cases reached : tree.reach [] outer with
        | ok directory =>
            rw [locate_of_reach plain rooted found shape reached,
              locate_of_reach plain rooted found shape reached]
        | error refusal =>
            rw [locate_of_blocked plain rooted found shape reached,
              locate_of_blocked plain rooted found shape reached]

/-- A file is aimed at a place in a directory where no directory stands. -/
theorem aimIn_eq_found
    {directory place : Place}
    {name? : Option String}
    (plain : tree.IsPlain)
    (isDirectory : tree.get? directory = some .directory)
    (found : tree.aimIn directory name? = .found place) :
    ∃ name, name? = some name ∧ tree.stepTo directory name = .ok ⟨place, tree.get? place⟩ ∧
      place = directory ++ [name] ∧ tree.get? place ≠ some .directory := by
  cases name? with
  | none =>
      contradiction
  | some name =>
      rw [aimIn] at found
      refine ⟨name, rfl, ?_⟩
      rcases stepTo_cases plain isDirectory name with
        tooLong | ⟨inner, isInner, -⟩ | ⟨old, isFile, isOld⟩ | ⟨isMissing, nothing⟩
      · rw [tooLong] at found
        contradiction
      · rw [isInner] at found
        contradiction
      · rw [isFile] at found
        cases found
        rw [isFile, isOld]
        exact ⟨rfl, rfl, by simp⟩
      · rw [isMissing] at found
        cases found
        rw [isMissing, nothing]
        exact ⟨rfl, rfl, by simp⟩

/-- What aiming a file leaves: a tree without links that holds what was there, and in it a directory
for the place that has been found. -/
structure IsAimed (tree later : FileTree) (aim : Aim) : Prop where
  plain : later.IsPlain
  grows : tree.GrowsTo later
  free : ∀ place, aim = .found place →
    ∃ directory name, place = directory ++ [name] ∧ later.get? directory = some .directory ∧
      later.get? place ≠ some .directory

theorem isAimed_aim
    (plain : tree.IsPlain)
    (path : FilePath)
    (whole : Bool) :
    tree.IsAimed (tree.aim path whole).1 (tree.aim path whole).2 := by
  unfold aim
  split
  · rename_i fault _
    refine ⟨plain, .refl tree, fun place found => ?_⟩
    cases fault <;> contradiction
  · obtain ⟨stillPlain, grows, reaches⟩ := makeAlong_spec plain tree.get?_root path.names.dropLast
    rcases along : tree.makeAlong [] path.names.dropLast with ⟨later, _ | directory⟩ <;>
      rw [along] at stillPlain grows reaches
    · exact ⟨stillPlain, grows, by simp⟩
    · refine ⟨stillPlain, grows, fun place found => ?_⟩
      dsimp only at found
      split at found
      · unfold aimFrom at found
        split at found
        · rename_i fault _
          cases fault <;> contradiction
        · have isDirectory := get?_of_reach stillPlain later.get?_root (reaches directory rfl)
          obtain ⟨name, -, -, shape, free⟩ := aimIn_eq_found stillPlain isDirectory found
          exact ⟨directory, name, shape, isDirectory, free⟩
      · contradiction

namespace IsAimed

variable {later : FileTree} {aim : Aim}

theorem plain_hit
    (aimed : tree.IsAimed later aim)
    (bytes : List UInt8) :
    (later.hit bytes aim).IsPlain := by
  cases aim with
  | found place =>
      obtain ⟨directory, name, shape, isDirectory, free⟩ := aimed.free place rfl
      rw [shape] at free ⊢
      exact aimed.plain.put isDirectory (by simp) (.inr free)
  | refused =>
      exact aimed.plain
  | broken =>
      exact aimed.plain

theorem grows_hit
    (aimed : tree.IsAimed later aim)
    (bytes : List UInt8) :
    later.GrowsTo (later.hit bytes aim) := by
  cases aim with
  | found place =>
      obtain ⟨directory, name, shape, -, free⟩ := aimed.free place rfl
      refine growsTo_put (by simp [shape]) fun kind isKind => ?_
      cases kind with
      | true =>
          exact absurd (directory?_eq_some_true_iff.mp isKind) free
      | false =>
          rfl
  | refused =>
      exact .refl later
  | broken =>
      exact .refl later

end IsAimed

end FileTree

namespace Change

open FileTree

variable {tree : FileTree}

/-- How writing a file ends, by what it has been aimed at. -/
inductive EndsWriting (value : α) : Aim → Except FileFault α → Prop where
  | found (place : Place) : EndsWriting value (.found place) (.ok value)
  | refused (refusal : Refusal) (text : String) :
      EndsWriting value .refused (.error (.refused refusal text))
  | broken (fault : FileFault) (isLast : fault.isRefused = false) :
      EndsWriting value .broken (.error fault)

theorem endsWriting_ofFault
    (value : α)
    (fault : FileFault) :
    EndsWriting value (.ofFault fault) (.error fault) := by
  cases fault with
  | refused refusal text =>
      exact .refused refusal text
  | nullByte =>
      exact .broken .nullByte rfl
  | endlessLink =>
      exact .broken .endlessLink rfl
  | notUnicode =>
      exact .broken .notUnicode rfl

theorem inTree_writeInPlace
    (path : FilePath)
    (bytes : List UInt8) :
    (writeInPlace path bytes).inTree tree =
      match tree.locate .creation path with
      | .ok ⟨_, some .directory⟩ => (.error (.refused .isDirectory path.text), tree)
      | .ok ⟨place, _⟩ => (.ok (), tree.put place (.file bytes))
      | .error fault => (.error fault, tree) := by
  rw [writeInPlace, inTree_bind, inTree_ask]
  rcases tree.locate .creation path with fault | ⟨place, _ | entry⟩
  · rfl
  · rfl
  · cases entry <;> rfl

/-- Without links a file that is replaced gets the place where it would be written. -/
theorem inTree_replaceFile
    (plain : tree.IsPlain)
    {path : FilePath}
    (rooted : path.IsRooted)
    (bytes : List UInt8) :
    (replaceFile path bytes).inTree tree = (writeInPlace path bytes).inTree tree := by
  rw [replaceFile, inTree_bind, inTree_get]
  dsimp only
  cases found : replaceable? tree path with
  | none =>
      rfl
  | some place =>
      rw [inTree_put, inTree_writeInPlace, locate_eq_locate plain rooted .creation .entry]
      unfold replaceable? at found
      split at found
      · contradiction
      · split at found
        · rename_i located
          rw [located]
          split at found
          · contradiction
          · rename_i notDirectory
            cases found
            split
            · rename_i isDirectory
              cases isDirectory
              exact absurd rfl notDirectory
            · rename_i isPlace
              cases isPlace
              rfl
            · contradiction
        · contradiction

/-- A file is written where it is aimed at in the directory above it. -/
theorem inTree_writeInPlace_of_reach
    (plain : tree.IsPlain)
    {path : FilePath}
    (rooted : path.IsRooted)
    (fits : path.fault? = none)
    {directory : Place}
    (reached : tree.reach [] path.names.dropLast = .ok directory)
    (bytes : List UInt8) :
    ∃ result,
      (writeInPlace path bytes).inTree tree =
          (result, tree.hit bytes (tree.aimIn directory path.names.getLast?)) ∧
        EndsWriting () (tree.aimIn directory path.names.getLast?) result := by
  rw [inTree_writeInPlace]
  rcases List.eq_nil_or_concat path.names with isRoot | ⟨outer, name, shape⟩
  · rw [locate_root rooted fits isRoot, isRoot]
    exact ⟨_, rfl, .refused .isDirectory path.text⟩
  · rw [List.concat_eq_append] at shape
    rw [shape, List.dropLast_concat] at reached
    rw [locate_of_reach plain rooted fits shape reached, shape, List.getLast?_concat, aimIn]
    rcases stepTo_cases plain (get?_of_reach plain tree.get?_root reached) name with
      tooLong | ⟨inner, isInner, -⟩ | ⟨old, isFile, -⟩ | ⟨isMissing, -⟩
    · rw [tooLong]
      exact ⟨_, rfl, .refused .nameTooLong path.text⟩
    · rw [isInner]
      exact ⟨_, rfl, .refused .isDirectory path.text⟩
    · rw [isFile]
      exact ⟨_, rfl, .found _⟩
    · rw [isMissing]
      exact ⟨_, rfl, .found _⟩

/-- A file is written where its path is aimed at from the directory above it. -/
theorem inTree_writeInPlace_of_parent
    (plain : tree.IsPlain)
    {path : FilePath}
    (rooted : path.IsRooted)
    {directory : Place}
    (reached : tree.reach [] path.names.dropLast = .ok directory)
    (bytes : List UInt8) :
    ∃ result,
      (writeInPlace path bytes).inTree tree =
          (result, tree.hit bytes (tree.aimFrom directory path)) ∧
        EndsWriting () (tree.aimFrom directory path) result := by
  unfold aimFrom
  cases found : path.fault? with
  | none =>
      exact inTree_writeInPlace_of_reach plain rooted found reached bytes
  | some fault =>
      rw [inTree_writeInPlace, tree.locate_of_fault found]
      refine ⟨.error fault, ?_, endsWriting_ofFault () fault⟩
      cases fault <;> rfl

end Change

namespace FilePath

theorem isRooted_of_descends
    {place : Place}
    (descends : ∀ name ∈ place, Path.Descends name ∧ Text.IsText name) :
    (fromRoot place).IsRooted where
  slashes := Nat.one_ne_zero
  steps name member := ⟨(descends name member).1.segment.1, (descends name member).1.notHere⟩
  texts name member := (descends name member).2

/-- A path that a text spells is a path from the root below such a path. -/
theorem IsRooted.below_ofText
    {directory : FilePath}
    (rooted : directory.IsRooted)
    {text : String}
    (isText : Text.IsText text) :
    (directory.below (.ofText text)).IsRooted := by
  have steps : FileTree.AreSteps (ofText text).names := fun name member => by
    obtain ⟨isSegment, notHere⟩ := List.mem_filter.mp member
    exact ⟨(Path.isSegment_of_mem_segments isSegment).1, by simpa using notHere⟩
  have texts : ∀ name ∈ (ofText text).names, Text.IsText name := fun name member =>
    isText.of_mem_segments (List.mem_filter.mp member).1
  unfold below
  split
  · rename_i absolute
    exact ⟨bne_iff_ne.mp absolute, steps, texts⟩
  · refine ⟨rooted.slashes, fun name member => ?_, fun name member => ?_⟩
    · exact (List.mem_append.mp member).elim (rooted.steps name) (steps name)
    · exact (List.mem_append.mp member).elim (rooted.texts name) (texts name)

end FilePath

namespace Export.Exporter

open FileTree Change

variable {tree : FileTree}

/-- Once the directories above a file are there, it is written where it is aimed at. -/
theorem inTree_writeIn
    (plain : tree.IsPlain)
    (options : ExportOptions)
    {path : FilePath}
    (rooted : path.IsRooted)
    {directory : Place}
    (reached : tree.reach [] path.names.dropLast = .ok directory)
    (bytes : List UInt8) :
    ∃ result,
      (if options.replacesFiles then replaceFile path bytes
        else writeInPlace path bytes : Change Unit).inTree tree =
          (result, tree.hit bytes (tree.aimFrom directory path)) ∧
        EndsWriting () (tree.aimFrom directory path) result := by
  obtain ⟨result, isWritten, ends⟩ :=
    inTree_writeInPlace_of_parent plain rooted reached bytes
  refine ⟨result, ?_, ends⟩
  split
  · rw [inTree_replaceFile plain rooted, isWritten]
  · exact isWritten

theorem writeFile_eq
    (exporter : Exporter)
    (file : RenderedFile) :
    exporter.writeFile file =
      ensureDirectory (exporter.pathOf file).parent >>= fun _ =>
        if Text.isWhole file.content then
          (if exporter.options.replacesFiles then
              replaceFile (exporter.pathOf file) (Text.encodeUtf8 file.content)
            else writeInPlace (exporter.pathOf file) (Text.encodeUtf8 file.content)) >>= fun _ =>
            pure (Record.ofFile file (exporter.pathOf file).text)
        else throw .notUnicode := by
  unfold writeFile
  cases Text.isWhole file.content with
  | false =>
      rfl
  | true =>
      cases exporter.options.replacesFiles <;> rfl

/-- A file is written where it is aimed at, and its record made. -/
theorem inTree_writeFile
    (plain : tree.IsPlain)
    (exporter : Exporter)
    (file : RenderedFile)
    (rooted : (exporter.pathOf file).IsRooted) :
    ∃ result,
      (exporter.writeFile file).inTree tree =
          (result, (tree.aim (exporter.pathOf file) (Text.isWhole file.content)).1.hit
            (Text.encodeUtf8 file.content)
            (tree.aim (exporter.pathOf file) (Text.isWhole file.content)).2) ∧
        EndsWriting (Record.ofFile file (exporter.pathOf file).text)
          (tree.aim (exporter.pathOf file) (Text.isWhole file.content)).2 result := by
  -- The directory is made first; only then does the content have to have bytes.
  rw [writeFile_eq, aim]
  generalize exporter.pathOf file = path at rooted ⊢
  cases faulty : path.parent.fault? with
  | some fault =>
      rw [inTree_bind, inTree_ensureDirectory_of_fault faulty]
      refine ⟨.error fault, ?_, endsWriting_ofFault _ fault⟩
      cases fault <;> rfl
  | none =>
      obtain ⟨made, isMade, ends⟩ := inTree_ensureDirectory plain rooted.parent faulty
      obtain ⟨stillPlain, -, reaches⟩ := makeAlong_spec plain tree.get?_root path.names.dropLast
      dsimp only [FilePath.parent] at isMade ends ⊢
      rw [inTree_bind, isMade]
      rcases along : tree.makeAlong [] path.names.dropLast with ⟨later, last⟩
      rw [along] at ends stillPlain reaches
      cases ends with
      | refused refusal text =>
          exact ⟨_, rfl, .refused refusal text⟩
      | made directory =>
          dsimp only
          split
          · obtain ⟨written, isWritten, endsToo⟩ :=
              inTree_writeIn stillPlain exporter.options rooted (reaches directory rfl)
                (Text.encodeUtf8 file.content)
            rw [inTree_bind, isWritten]
            generalize later.aimFrom directory path = aim at endsToo ⊢
            cases endsToo with
            | found place =>
                exact ⟨_, rfl, .found place⟩
            | refused refusal text =>
                exact ⟨_, rfl, .refused refusal text⟩
            | broken fault isLast =>
                exact ⟨_, rfl, .broken fault isLast⟩
          · exact ⟨_, rfl, .broken .notUnicode rfl⟩

/-- How adding a file ends, by what it has been aimed at. -/
inductive EndsAdding (exporter : Exporter) (file : RenderedFile) :
    Aim → Except FileFault Exporter → Prop where
  | written (place : Place) :
      EndsAdding exporter file (.found place)
        (.ok (exporter.addRecord (.ofFile file (exporter.pathOf file).text)))
  | reported (refusal : Refusal) (text : String) :
      EndsAdding exporter file .refused
        (.ok (exporter.addError ("Failed to write " ++ file.path ++ ": " ++
          (FileFault.refused refusal text).report)))
  | stopped (fault : FileFault) (isLast : fault.isRefused = false) :
      EndsAdding exporter file .broken (.error fault)

/-- Adding a file notes how writing it has ended. -/
theorem inTree_addFile
    (plain : tree.IsPlain)
    (exporter : Exporter)
    (file : RenderedFile)
    (rooted : (exporter.pathOf file).IsRooted) :
    ∃ result,
      (exporter.addFile file).inTree tree =
          (result, (tree.aim (exporter.pathOf file) (Text.isWhole file.content)).1.hit
            (Text.encodeUtf8 file.content)
            (tree.aim (exporter.pathOf file) (Text.isWhole file.content)).2) ∧
        EndsAdding exporter file
          (tree.aim (exporter.pathOf file) (Text.isWhole file.content)).2 result := by
  obtain ⟨written, isWritten, ends⟩ := inTree_writeFile plain exporter file rooted
  rw [addFile, inTree_bind, inTree_attempt, isWritten]
  generalize tree.aim (exporter.pathOf file) (Text.isWhole file.content) = aimed at ends ⊢
  rcases aimed with ⟨later, aim⟩
  cases ends with
  | found place =>
      exact ⟨_, rfl, .written place⟩
  | refused refusal text =>
      exact ⟨_, rfl, .reported refusal text⟩
  | broken fault isLast =>
      dsimp only
      rw [recover, if_neg (by simp [isLast])]
      exact ⟨_, rfl, .stopped fault isLast⟩

end Export.Exporter

end ZodSchemas
