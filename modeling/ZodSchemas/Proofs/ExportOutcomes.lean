import Mathlib.Algebra.Ring.Nat
import Mathlib.Data.List.Forall2
import Mathlib.Data.List.Infix
import ZodSchemas.Proofs.OrdinaryPlaces

namespace ZodSchemas

/-!
# What an export leaves

Each file of an export ends as a record or as an error: a record where the file
stands at its place, and an error where something bars it.  What stands
elsewhere remains, except that the directory may have been cleaned, that
directories have been made on the way and that a manifest may have been written.
-/

open FileTree Change

/-- A relative path of ordinary names. -/
def IsOrdinaryPath (path : String) : Prop :=
  ∃ names : List String, names ≠ [] ∧ (∀ name ∈ names, IsOrdinary name) ∧
    path = "/".intercalate names

theorem IsOrdinary.not_isAbsolute_intercalate
    {names : List String}
    (ordinary : ∀ name ∈ names, IsOrdinary name) :
    Path.isAbsolute ("/".intercalate names) = false := by
  cases names with
  | nil =>
      rfl
  | cons name rest =>
      have isSegment := (ordinary name (.head _)).descends.segment
      obtain ⟨first, others, shape⟩ : ∃ first others, name.toList = first :: others :=
        List.exists_cons_of_ne_nil (mt String.toList_eq_nil_iff.mp isSegment.1)
      have noSlash : first ≠ '/' := fun isSlash =>
        isSegment.2 (shape ▸ isSlash ▸ .head _)
      have starts : ∃ behind, ("/".intercalate (name :: rest)).toList = first :: behind := by
        by_cases isLast : rest = []
        · exact ⟨others, by rw [isLast, String.intercalate_singleton, shape]⟩
        · refine ⟨others ++ ("/" ++ "/".intercalate rest).toList, ?_⟩
          rw [String.intercalate_cons_of_ne_nil isLast, String.append_assoc, String.toList_append,
            shape]
          rfl
      obtain ⟨behind, isShape⟩ := starts
      rw [Path.isAbsolute, isShape, List.head?_cons]
      simpa using noSlash

namespace Export

/-- The place of a file below a directory. -/
def placeOf (directory : Place) (file : RenderedFile) : Place :=
  directory ++ Path.segments file.path

/-- A file whose path is ordinary and whose content has bytes. -/
structure IsOrdinaryFile (file : RenderedFile) : Prop where
  path : IsOrdinaryPath file.path
  whole : Text.isWhole file.content = true

namespace IsOrdinaryFile

variable {file : RenderedFile}

theorem segments
    (ordinary : IsOrdinaryFile file) :
    Path.segments file.path ≠ [] ∧ (∀ name ∈ Path.segments file.path, IsOrdinary name) ∧
      file.path = "/".intercalate (Path.segments file.path) := by
  obtain ⟨names, notEmpty, areOrdinary, isPath⟩ := ordinary.path
  have sameNames : Path.segments file.path = names := by
    rw [isPath]
    exact Path.segments_intercalate fun name member => (areOrdinary name member).descends.segment
  rw [sameNames]
  exact ⟨notEmpty, areOrdinary, isPath⟩

theorem pathOf
    (ordinary : IsOrdinaryFile file)
    {exporter : Exporter}
    {directory : Place}
    (isDirectory : exporter.directory = .fromRoot directory) :
    exporter.pathOf file = .fromRoot (placeOf directory file) := by
  obtain ⟨-, areOrdinary, isPath⟩ := ordinary.segments
  have relative : Path.isAbsolute file.path = false := by
    rw [isPath]
    exact IsOrdinary.not_isAbsolute_intercalate areOrdinary
  rw [Exporter.pathOf, isDirectory]
  exact FilePath.below_ofText directory relative fun name member =>
    (areOrdinary name member).descends

/-- Files with the same place have the same path. -/
theorem path_eq
    {other : RenderedFile}
    (ordinary : IsOrdinaryFile file)
    (ordinaryToo : IsOrdinaryFile other)
    {directory : Place}
    (same : placeOf directory file = placeOf directory other) :
    file.path = other.path := by
  rw [ordinary.segments.2.2, ordinaryToo.segments.2.2, List.append_cancel_left same]

end IsOrdinaryFile

/-- A record of a file that stands at its place. -/
structure IsRecordOf (final : FileTree) (place : Place) (file : RenderedFile) (record : Record) :
    Prop where
  path : record.path = file.path
  absolutePath : record.absolutePath = (FilePath.fromRoot place).text
  size : record.size = (Text.encodeUtf8 file.content).length
  lineCount : record.lineCount = Text.lineCount file.content
  digest : record.digest = Text.digest (Text.encodeUtf8 file.content)
  stands : final.get? place = some (.file (Text.encodeUtf8 file.content))
  free : ¬ final.Bars place

/-- An error about a file that something keeps from its place. -/
structure IsErrorAbout (final : FileTree) (place : Place) (file : RenderedFile) (error : String) :
    Prop where
  text : ∃ refusal path, error =
    "Failed to write " ++ file.path ++ ": " ++ (FileFault.refused refusal path).report
  bars : final.Bars place

/-- How a file of an export has ended: as a record, or as an error. -/
def HasEnded (final : FileTree) (directory : Place) (file : RenderedFile) :
    Except String Record → Prop
  | .ok record => IsRecordOf final (placeOf directory file) file record
  | .error error => IsErrorAbout final (placeOf directory file) file error

/-- How a file has ended is how it ends, if nothing else is written at its place. -/
theorem HasEnded.later
    {middle final : FileTree}
    {directory : Place}
    {file : RenderedFile}
    {outcome : Except String Record}
    (ended : HasEnded middle directory file outcome)
    (plain : final.IsPlain)
    (grows : middle.GrowsTo final)
    (kept : ∀ bytes, middle.get? (placeOf directory file) = some (.file bytes) →
      final.get? (placeOf directory file) = some (.file bytes)) :
    HasEnded final directory file outcome := by
  cases outcome with
  | ok record =>
      have fits : Fits (placeOf directory file) := by
        by_contra noFit
        exact ended.free (.tooLong noFit)
      have stands := kept _ ended.stands
      exact { ended with
        stands
        free := plain.not_bars fits (plain.directory?_eq_some_false_iff.mpr ⟨_, stands⟩) }
  | error error =>
      exact { ended with bars := ended.bars.grow grows }

namespace Exporter

/-- Note how a file has ended. -/
def addOutcome (exporter : Exporter) : Except String Record → Exporter
  | .ok record => exporter.addRecord record
  | .error error => exporter.addError error

variable {tree : FileTree}

theorem isRooted_of_ordinary
    {directory : Place}
    (ordinary : ∀ name ∈ directory, IsOrdinary name) :
    (FilePath.fromRoot directory).IsRooted :=
  FilePath.isRooted_of_descends fun name member =>
    ⟨(ordinary name member).descends, (ordinary name member).whole.isText⟩

/-- An ordinary file ends as a record or as an error, and nothing changes but its place and the way
to it. -/
theorem inTree_addFile_of_ordinary
    (plain : tree.IsPlain)
    {exporter : Exporter}
    {directory : Place}
    (isDirectory : exporter.directory = .fromRoot directory)
    (ordinaryNames : ∀ name ∈ directory, IsOrdinary name)
    {file : RenderedFile}
    (ordinary : IsOrdinaryFile file) :
    ∃ outcome aim later,
      (exporter.addFile file).inTree tree = (.ok (exporter.addOutcome outcome), later) ∧
        IsPut tree later (placeOf directory file) (Text.encodeUtf8 file.content) aim ∧
        HasEnded later directory file outcome ∧
        (aim = .found (placeOf directory file) → ∃ record, outcome = .ok record) := by
  obtain ⟨notEmpty, areOrdinary, -⟩ := ordinary.segments
  obtain ⟨outer, name, shape⟩ : ∃ outer name, placeOf directory file = outer ++ [name] := by
    rcases List.eq_nil_or_concat (placeOf directory file) with isRoot | ⟨outer, name, shape⟩
    · exact absurd (List.append_eq_nil_iff.mp isRoot).2 notEmpty
    · exact ⟨outer, name, shape.trans List.concat_eq_append⟩
  have allOrdinary : ∀ other ∈ outer ++ [name], IsOrdinary other := by
    rw [← shape]
    exact List.forall_mem_append.mpr ⟨ordinaryNames, areOrdinary⟩
  have isPath := ordinary.pathOf isDirectory
  have rooted : (exporter.pathOf file).IsRooted := by
    rw [isPath, shape]
    exact isRooted_of_ordinary allOrdinary
  obtain ⟨result, added, ends⟩ := inTree_addFile plain exporter file rooted
  rw [isPath, shape, ordinary.whole] at added ends
  have isPut := (isReady_aim plain allOrdinary).hit (Text.encodeUtf8 file.content)
  rw [← shape] at isPut added ends
  generalize (tree.aim (.fromRoot (placeOf directory file)) true).1 = ready at isPut added
  generalize (tree.aim (.fromRoot (placeOf directory file)) true).2 = aim at isPut added ends
  rcases isPut.ends with ⟨rfl, fits, stands⟩ | ⟨rfl, bars⟩
  · cases ends
    refine ⟨.ok (.ofFile file (exporter.pathOf file).text), _, _, added, isPut, ?_, fun _ =>
      ⟨_, rfl⟩⟩
    exact {
      path := rfl
      absolutePath := by rw [isPath]; rfl
      size := rfl
      lineCount := rfl
      digest := rfl
      stands
      free := isPut.plain.not_bars fits
        (isPut.plain.directory?_eq_some_false_iff.mpr ⟨_, stands⟩) }
  · cases ends with
    | reported refusal text =>
        exact ⟨.error _, _, _, added, isPut, ⟨⟨refusal, text, rfl⟩, bars⟩, by simp⟩

/-- What adding ordinary files leaves. -/
structure Leaves (tree final : FileTree) (directory : Place) (files : List RenderedFile)
    (outcomes : List (Except String Record)) : Prop where
  plain : final.IsPlain
  grows : tree.GrowsTo final
  ended : List.Forall₂ (HasEnded final directory) files outcomes
  frame : tree.DiffersIn
    (fun place => ∃ file ∈ files, place <+: (placeOf directory file).dropLast)
    (fun place => ∃ file record, (file, .ok record) ∈ files.zip outcomes ∧
      place = placeOf directory file)
    final

/-- Adding a list of ordinary files, each with a path of its own, notes for each of them how it has
ended. -/
theorem inTree_addFiles_of_ordinary
    (plain : tree.IsPlain)
    {exporter : Exporter}
    {directory : Place}
    (isDirectory : exporter.directory = .fromRoot directory)
    (ordinaryNames : ∀ name ∈ directory, IsOrdinary name)
    {files : List RenderedFile}
    (ordinary : ∀ file ∈ files, IsOrdinaryFile file)
    (apart : (files.map (·.path)).Nodup) :
    ∃ outcomes final,
      (files.foldlM addFile exporter).inTree tree =
          (.ok (outcomes.foldl addOutcome exporter), final) ∧
        Leaves tree final directory files outcomes := by
  induction files generalizing tree exporter with
  | nil =>
      exact ⟨[], tree, rfl, plain, .refl tree, .nil, .refl tree⟩
  | cons file files inductionHypothesis =>
      rw [List.forall_mem_cons] at ordinary
      rw [List.map_cons, List.nodup_cons] at apart
      obtain ⟨outcome, aim, middle, added, isPut, ended, isRecorded⟩ :=
        inTree_addFile_of_ordinary plain isDirectory ordinaryNames ordinary.1
      have isDirectoryThen : (exporter.addOutcome outcome).directory = .fromRoot directory := by
        cases outcome <;> exact isDirectory
      obtain ⟨outcomes, final, addedAll, leaves⟩ :=
        inductionHypothesis isPut.plain isDirectoryThen ordinary.2 apart.2
      refine ⟨outcome :: outcomes, final, ?_, ?_⟩
      · rw [List.foldlM_cons, inTree_bind, added]
        exact addedAll
      · -- The files behind have paths of their own, so none of them is written here.
        have kept (bytes : List UInt8)
            (isFile : middle.get? (placeOf directory file) = some (.file bytes)) :
            final.get? (placeOf directory file) = some (.file bytes) := by
          rcases leaves.frame (placeOf directory file) with
            unchanged | ⟨nothing, -, -⟩ | ⟨other, record, member, same⟩
          · rw [unchanged, isFile]
          · rw [isFile] at nothing
            contradiction
          · have isOther := (List.of_mem_zip member).1
            have samePath := ordinary.1.path_eq (ordinary.2 other isOther) same
            exact absurd (List.mem_map.mpr ⟨other, isOther, samePath.symm⟩) apart.1
        exact {
          plain := leaves.plain
          grows := isPut.grows.trans leaves.grows
          ended := .cons (ended.later leaves.plain leaves.grows kept) leaves.ended
          frame := (isPut.frame.mono
            (fun _ isWay => ⟨file, .head _, isWay⟩)
            (fun place ⟨isFound, isPlace⟩ => by
              obtain ⟨record, rfl⟩ := isRecorded isFound
              exact ⟨file, record, .head _, isPlace⟩)).trans
            (leaves.frame.mono
              (fun _ ⟨other, member, isWay⟩ => ⟨other, .tail _ member, isWay⟩)
              (fun _ ⟨other, record, member, isPlace⟩ =>
                ⟨other, record, .tail _ member, isPlace⟩)) }

/-- The error that a file has ended as. -/
def error? : Except String Record → Option String
  | .ok _ => none
  | .error error => some error

theorem foldl_addOutcome
    (exporter : Exporter)
    (outcomes : List (Except String Record)) :
    outcomes.foldl addOutcome exporter =
      { exporter with
        records := exporter.records ++ outcomes.filterMap Except.toOption
        errors := exporter.errors ++ outcomes.filterMap error? } := by
  induction outcomes generalizing exporter with
  | nil =>
      simp
  | cons outcome outcomes inductionHypothesis =>
      rw [List.foldl_cons, inductionHypothesis]
      cases outcome <;>
        simp [addOutcome, addRecord, addError, error?, Except.toOption, List.filterMap_cons]

/-- A directory that is there or can be made: its names are short enough, and no file is above it or
in its place. -/
structure CanHold (tree : FileTree) (directory : Place) : Prop where
  ordinary : ∀ name ∈ directory, IsOrdinary name
  fits : Fits directory
  free : ∀ outer ∈ directory.inits, tree.directory? outer ≠ some false

namespace CanHold

variable {directory : Place}

theorem fault?_eq_none
    (canHold : CanHold tree directory) :
    (FilePath.fromRoot directory).fault? = none := by
  rw [FilePath.fault?_of_ordinary canHold.ordinary, if_neg (Nat.not_lt.mpr canHold.fits.path)]

theorem notUp
    (canHold : CanHold tree directory) :
    ∀ name ∈ directory, name ≠ ".." :=
  fun name member => (canHold.ordinary name member).descends.notUp

theorem not_file
    (canHold : CanHold tree directory)
    {inner rest : Place}
    (shape : directory = inner ++ rest) :
    tree.directory? inner ≠ some false :=
  canHold.free inner ((List.mem_inits inner directory).mpr ⟨rest, shape.symm⟩)

/-- A file that is on the way after the directory has been cleaned and made would have been there
from the start. -/
theorem not_file_of_made
    (canHold : CanHold tree directory)
    {options : ExportOptions}
    {cleaned later : FileTree}
    (prepared : IsPrepared options directory tree cleaned)
    (made : cleaned.DiffersIn (· <+: directory) (fun _ => False) later)
    {inner rest : Place}
    (shape : directory = inner ++ rest) :
    later.directory? inner ≠ some false := by
  intro isFile
  have notCleared : ¬ Clears options directory inner := by
    rintro ⟨-, name, others, isBelow, -⟩
    have longer := congrArg List.length isBelow
    have shorter := congrArg List.length shape
    simp only [List.length_append, List.length_cons] at longer shorter
    omega
  refine canHold.not_file shape ?_
  rw [directory?, ← prepared.outside inner notCleared]
  rcases made inner with unchanged | ⟨-, isMade, -⟩ | isFalse
  · rw [← unchanged]
    exact isFile
  · rw [directory?_eq_some_true_iff.mpr isMade] at isFile
    contradiction
  · exact isFalse.elim

/-- What is asked of the directory of an exporter before it is prepared. -/
theorem isFit
    (canHold : CanHold tree directory)
    {exporter : Exporter}
    (isDirectory : exporter.directory = .fromRoot directory) :
    exporter.directory.IsRooted ∧ exporter.directory.fault? = none := by
  rw [isDirectory]
  exact ⟨isRooted_of_ordinary canHold.ordinary, canHold.fault?_eq_none⟩

end CanHold

/-- A directory that can be made is prepared and made. -/
theorem exists_prepared
    (plain : tree.IsPlain)
    {directory : Place}
    (canHold : CanHold tree directory)
    {exporter : Exporter}
    (isDirectory : exporter.directory = .fromRoot directory) :
    ∃ cleaned, exporter.prepare.inTree tree = (.ok [], cleaned) ∧
      IsPrepared exporter.options directory tree cleaned ∧
      (cleaned.makeAlong [] directory).2 = some directory := by
  obtain ⟨rooted, faultless⟩ := canHold.isFit isDirectory
  rcases inTree_prepare_spec plain exporter isDirectory rooted faultless canHold.notUp with
    ⟨-, -, -, blocked, isBlocked, present⟩ | ⟨cleaned, isPrepared, prepared⟩
  · have ends := endsAlong_makeAlong plain tree.get?_root canHold.notUp
    rw [makeAlong_of_blocked plain tree.get?_root isBlocked present] at ends
    have last := ends.last_eq canHold.fits.names fun _ _ shape => canHold.not_file shape
    contradiction
  · have ends := endsAlong_makeAlong prepared.plain cleaned.get?_root canHold.notUp
    have made := differsIn_makeAlong prepared.plain cleaned.get?_root canHold.notUp
    exact ⟨cleaned, isPrepared, prepared,
      ends.last_eq canHold.fits.names fun _ _ => canHold.not_file_of_made prepared made⟩

/-- A directory that can be made is prepared and made before the files are written. -/
theorem exists_made
    (plain : tree.IsPlain)
    {directory : Place}
    (canHold : CanHold tree directory)
    {exporter : Exporter}
    (isDirectory : exporter.directory = .fromRoot directory)
    (files : List RenderedFile) :
    ∃ cleaned made,
      (exporter.run files).inTree tree = (exporter.writeAll files).inTree made ∧
        IsPrepared exporter.options directory tree cleaned ∧ made.IsPlain ∧
        made.get? directory = some .directory ∧
        cleaned.DiffersIn (· <+: directory) (fun _ => False) made := by
  obtain ⟨cleaned, isPrepared, prepared, isMade⟩ := exists_prepared plain canHold isDirectory
  obtain ⟨rooted, faultless⟩ := canHold.isFit isDirectory
  have ran := inTree_run_of_prepared prepared.plain isDirectory isPrepared rooted faultless files
  obtain ⟨madePlain, -, reaches⟩ := makeAlong_spec prepared.plain cleaned.get?_root directory
  have way := differsIn_makeAlong prepared.plain cleaned.get?_root canHold.notUp
  rcases along : cleaned.makeAlong [] directory with ⟨made, last⟩
  rw [along] at ran isMade madePlain reaches way
  cases isMade
  exact ⟨cleaned, made, ran, prepared, madePlain,
    get?_of_reach madePlain made.get?_root (reaches directory rfl), way⟩

/-- What an export leaves, with the exporter that it leaves. -/
structure HasExported (tree final : FileTree) (directory : Place) (options : ExportOptions)
    (files : List RenderedFile) (outcomes : List (Except String Record)) (exporter : Exporter) :
    Prop where
  /-- Each file has ended as a record or as an error, in order. -/
  ended : List.Forall₂ (HasEnded final directory) files outcomes
  records : exporter.records = outcomes.filterMap Except.toOption
  errors : exporter.errors = outcomes.filterMap error?
  fileTotal : exporter.manifest.fileTotal = exporter.records.length
  byteTotal : exporter.manifest.byteTotal = (exporter.records.map (·.size)).sum
  lineTotal : exporter.manifest.lineTotal = (exporter.records.map (·.lineCount)).sum
  succeeded : exporter.succeeded = true ↔ ∀ outcome ∈ outcomes, ∃ record, outcome = .ok record
  /-- The manifest stands in the directory, if one is wanted and its path is short enough. -/
  manifest : options.writesManifest = true → Fits (directory ++ [Manifest.fileName]) →
    final.get? (directory ++ [Manifest.fileName]) =
      some (.file (Text.encodeUtf8 exporter.manifest.file.content))
  /-- Nothing else has changed since the directory was cleaned, except that directories have been
  made where nothing stood. -/
  frame : ∃ cleaned, IsPrepared options directory tree cleaned ∧
    cleaned.DiffersIn
      (fun place => place <+: directory ∨
        ∃ file ∈ files, place <+: (placeOf directory file).dropLast)
      (fun place =>
        (∃ file record, (file, .ok record) ∈ files.zip outcomes ∧
          place = placeOf directory file) ∨
        options.writesManifest = true ∧ place = directory ++ [Manifest.fileName])
      final

theorem foldl_total
    (size : Record → Nat)
    (records : List Record) :
    records.foldl (fun total record => total + size record) 0 = (records.map size).sum := by
  rw [List.sum_eq_foldl, List.foldl_map]

/-- Nothing has failed if no file has ended as an error. -/
theorem succeeded_iff
    {exporter : Exporter}
    {outcomes : List (Except String Record)}
    (errors : exporter.errors = outcomes.filterMap error?) :
    exporter.succeeded = true ↔ ∀ outcome ∈ outcomes, ∃ record, outcome = .ok record := by
  rw [succeeded, List.isEmpty_iff, errors, List.filterMap_eq_nil_iff]
  refine forall_congr' fun outcome => imp_congr_right fun _ => ?_
  cases outcome <;> simp [error?]

theorem isOrdinary_fileName : ∀ name ∈ [Manifest.fileName], IsOrdinary name :=
  areOrdinary_of_ascii (by decide)

/-- What a record says about an ordinary file can be written. -/
theorem isWholeText_of_ended
    {final : FileTree}
    {directory : Place}
    {files : List RenderedFile}
    {outcomes : List (Except String Record)}
    (ordinary : ∀ file ∈ files, IsOrdinaryFile file)
    (ended : List.Forall₂ (HasEnded final directory) files outcomes) :
    ∀ record ∈ outcomes.filterMap Except.toOption,
      Text.IsWholeText record.path ∧ Text.IsWholeText record.digest := by
  induction ended with
  | nil =>
      simp
  | @cons file outcome files outcomes ends _ inductionHypothesis =>
      rw [List.forall_mem_cons] at ordinary
      have later := inductionHypothesis ordinary.2
      cases outcome with
      | error error =>
          exact later
      | ok record =>
          refine List.forall_mem_cons.mpr ⟨⟨?_, ?_⟩, later⟩
          · obtain ⟨-, areOrdinary, isPath⟩ := ordinary.1.segments
            rw [ends.path, isPath]
            exact (Text.isWholeText_of_ascii (by decide)).intercalate fun name member =>
              (areOrdinary name member).whole
          · rw [ends.digest]
            exact Text.isWholeText_digest file.content

/-- Adding the manifest of ordinary files. -/
theorem inTree_addManifest_of_ordinary
    (plain : tree.IsPlain)
    {exporter : Exporter}
    {directory : Place}
    (isDirectory : exporter.directory = .fromRoot directory)
    (ordinaryNames : ∀ name ∈ directory, IsOrdinary name)
    (isTime : Text.IsWholeText exporter.time)
    (records : ∀ record ∈ exporter.records,
      Text.IsWholeText record.path ∧ Text.IsWholeText record.digest) :
    ∃ later aim noted,
      exporter.addManifest.inTree tree = (.ok noted, later) ∧
        IsPut tree later (directory ++ [Manifest.fileName])
          (Text.encodeUtf8 exporter.manifest.file.content) aim ∧
        noted.records = exporter.records ∧ noted.errors = exporter.errors ∧
        noted.manifest = exporter.manifest := by
  have isPath := pathOf_manifest isDirectory
  have whole : Text.isWhole exporter.manifest.file.content = true := by
    refine Manifest.isWhole_content isTime ?_ records
    rw [manifest, isDirectory]
    exact FilePath.isWholeText_fromRoot fun name member => (ordinaryNames name member).whole
  have allOrdinary : ∀ name ∈ directory ++ [Manifest.fileName], IsOrdinary name :=
    List.forall_mem_append.mpr ⟨ordinaryNames, isOrdinary_fileName⟩
  have rooted : (exporter.pathOf exporter.manifest.file).IsRooted := by
    rw [isPath]
    exact isRooted_of_ordinary allOrdinary
  obtain ⟨result, added, ends⟩ := inTree_addManifest plain exporter rooted
  rw [isPath, whole] at added ends
  have isPut := (isReady_aim plain allOrdinary).hit
    (Text.encodeUtf8 exporter.manifest.file.content)
  rcases isPut.ends with ⟨isFound, -, -⟩ | ⟨isRefused, -⟩
  · rw [isFound] at ends
    cases ends
    exact ⟨_, _, _, added, isPut, rfl, rfl, rfl⟩
  · rw [isRefused] at ends
    cases ends
    exact ⟨_, _, _, added, isPut, rfl, rfl, rfl⟩

/-- What adding all files leaves, seen from the tree before the directory was prepared. -/
structure HasAdded (tree left : FileTree) (directory : Place) (options : ExportOptions)
    (files : List RenderedFile) (outcomes : List (Except String Record)) : Prop where
  plain : left.IsPlain
  isThere : left.get? directory = some .directory
  ended : List.Forall₂ (HasEnded left directory) files outcomes
  frame : ∃ cleaned, IsPrepared options directory tree cleaned ∧
    cleaned.DiffersIn
      (fun place => place <+: directory ∨
        ∃ file ∈ files, place <+: (placeOf directory file).dropLast)
      (fun place => ∃ file record, (file, .ok record) ∈ files.zip outcomes ∧
        place = placeOf directory file)
      left

/-- An exporter that knows how its files have ended. -/
def noting (directory : Place) (options : ExportOptions) (time : String)
    (outcomes : List (Except String Record)) : Exporter :=
  { start (.fromRoot directory) options time with
    records := outcomes.filterMap Except.toOption
    errors := outcomes.filterMap error? }

/-- An export into a directory that can be made adds all files and then the manifest. -/
theorem exists_added
    (plain : tree.IsPlain)
    {directory : Place}
    (canHold : CanHold tree directory)
    (options : ExportOptions)
    (time : String)
    {files : List RenderedFile}
    (ordinary : ∀ file ∈ files, IsOrdinaryFile file)
    (apart : (files.map (·.path)).Nodup) :
    ∃ outcomes left,
      ((start (.fromRoot directory) options time).run files).inTree tree =
          (if options.writesManifest then
            (noting directory options time outcomes).addManifest.inTree left
          else (.ok (noting directory options time outcomes), left)) ∧
        HasAdded tree left directory options files outcomes := by
  have isDirectory : (start (.fromRoot directory) options time).directory = .fromRoot directory :=
    rfl
  obtain ⟨cleaned, made, ran, prepared, madePlain, isThere, way⟩ :=
    exists_made plain canHold isDirectory files
  obtain ⟨outcomes, left, added, leaves⟩ :=
    inTree_addFiles_of_ordinary madePlain isDirectory canHold.ordinary ordinary apart
  have isNoted : outcomes.foldl addOutcome (start (.fromRoot directory) options time) =
      noting directory options time outcomes :=
    foldl_addOutcome _ _
  refine ⟨outcomes, left, ?_, leaves.plain, leaves.grows.get?_directory isThere, leaves.ended,
    cleaned, prepared, ?_⟩
  · rw [ran, inTree_writeAll, added, isNoted]
    rfl
  · exact (way.mono (fun _ isWay => .inl isWay) fun _ isFalse => isFalse.elim).trans
      (leaves.frame.mono (fun _ isWay => .inr isWay) fun _ isWritten => isWritten)

theorem not_concat_prefix
    (directory : Place)
    (name : String) :
    ¬ directory ++ [name] <+: directory := fun isAbove => by
  have shorter := isAbove.length_le
  rw [List.length_append, List.length_singleton] at shorter
  omega

/-- Adding files makes no directory at the place of the manifest, unless one of them lies below. -/
theorem HasAdded.manifestFree
    {left : FileTree}
    {directory : Place}
    {options : ExportOptions}
    {files : List RenderedFile}
    {outcomes : List (Except String Record)}
    (added : HasAdded tree left directory options files outcomes)
    (noneManifest : ∀ file ∈ files, ¬ [Manifest.fileName] <+: Path.segments file.path)
    (manifestFree : tree.directory? (directory ++ [Manifest.fileName]) ≠ some true) :
    left.directory? (directory ++ [Manifest.fileName]) ≠ some true := by
  obtain ⟨cleaned, prepared, frame⟩ := added.frame
  have notOnTheWay {file : RenderedFile} (member : file ∈ files) :
      ¬ directory ++ [Manifest.fileName] <+: placeOf directory file := fun isWay =>
    noneManifest file member ((List.prefix_append_right_inj directory).mp isWay)
  have unchanged : left.get? (directory ++ [Manifest.fileName]) =
      cleaned.get? (directory ++ [Manifest.fileName]) := by
    refine frame.unchanged ?_ ?_
    · rintro (isAbove | ⟨file, member, isWay⟩)
      · exact not_concat_prefix directory _ isAbove
      · exact notOnTheWay member (isWay.trans (List.dropLast_prefix _))
    · rintro ⟨file, record, member, same⟩
      exact notOnTheWay (List.of_mem_zip member).1 (same ▸ List.prefix_refl _)
  rw [directory?, unchanged]
  by_cases clears : Clears options directory (directory ++ [Manifest.fileName])
  · rw [prepared.inside _ clears]
    simp
  · rw [prepared.outside _ clears]
    exact manifestFree

/-- Without a manifest an export is done when its files are added. -/
theorem HasAdded.hasExported_silent
    {left : FileTree}
    {directory : Place}
    {options : ExportOptions}
    {files : List RenderedFile}
    {outcomes : List (Except String Record)}
    (added : HasAdded tree left directory options files outcomes)
    (time : String)
    (silent : ¬ options.writesManifest = true) :
    HasExported tree left directory options files outcomes
      (noting directory options time outcomes) where
  ended := added.ended
  records := rfl
  errors := rfl
  fileTotal := rfl
  byteTotal := foldl_total _ _
  lineTotal := foldl_total _ _
  succeeded := succeeded_iff rfl
  manifest := fun wanted => absurd wanted silent
  frame := by
    obtain ⟨cleaned, prepared, frame⟩ := added.frame
    exact ⟨cleaned, prepared, frame.mono (fun _ isWay => isWay) fun _ isFile => .inl isFile⟩

/-- The manifest is put beside the files and disturbs none of them. -/
theorem HasAdded.hasExported_of_isPut
    {left final : FileTree}
    {directory : Place}
    {options : ExportOptions}
    {time : String}
    {files : List RenderedFile}
    {outcomes : List (Except String Record)}
    (added : HasAdded tree left directory options files outcomes)
    (noneManifest : ∀ file ∈ files, ¬ [Manifest.fileName] <+: Path.segments file.path)
    (manifestFree : tree.directory? (directory ++ [Manifest.fileName]) ≠ some true)
    (wanted : options.writesManifest = true)
    {aim : Aim}
    {exporter : Exporter}
    (isPut : IsPut left final (directory ++ [Manifest.fileName])
      (Text.encodeUtf8 (noting directory options time outcomes).manifest.file.content) aim)
    (sameRecords : exporter.records = (noting directory options time outcomes).records)
    (sameErrors : exporter.errors = (noting directory options time outcomes).errors)
    (sameManifest : exporter.manifest = (noting directory options time outcomes).manifest) :
    HasExported tree final directory options files outcomes exporter where
  ended := ((List.forall₂_and_left _ _).mpr ⟨noneManifest, added.ended⟩).imp
    fun file outcome both =>
      both.2.later isPut.plain isPut.grows fun bytes => isPut.get?_of_ne fun same =>
        both.1 (List.append_cancel_left same ▸ List.prefix_refl _)
  records := sameRecords
  errors := sameErrors
  fileTotal := rfl
  byteTotal := foldl_total _ _
  lineTotal := foldl_total _ _
  succeeded := succeeded_iff sameErrors
  manifest := fun _ fits => by
    rw [sameManifest]
    rcases isPut.ends with ⟨-, -, stands⟩ | ⟨isRefused, bars⟩
    · exact stands
    · have unchanged : final.get? (directory ++ [Manifest.fileName]) =
          left.get? (directory ++ [Manifest.fileName]) := by
        refine isPut.frame.unchanged ?_ fun isWritten => ?_
        · rw [List.dropLast_concat]
          exact not_concat_prefix directory _
        · rw [isRefused] at isWritten
          cases isWritten.1
      have notDirectory :
          final.directory? (directory ++ [Manifest.fileName]) ≠ some true := by
        rw [directory?, unchanged]
        exact added.manifestFree noneManifest manifestFree
      exact absurd bars (isPut.plain.not_bars_in (isPut.grows.get?_directory added.isThere) fits
        notDirectory)
  frame := by
    obtain ⟨cleaned, prepared, frame⟩ := added.frame
    refine ⟨cleaned, prepared, .trans
      (frame.mono (fun _ isWay => isWay) fun _ isFile => .inl isFile)
      (isPut.frame.mono (fun place isWay => ?_) fun place isManifest => ?_)⟩
    · rw [List.dropLast_concat] at isWay
      exact .inl isWay
    · exact .inr ⟨wanted, isManifest.2⟩

/-- An export into a directory that can be made leaves each file at its place or an error about what
keeps it from there, and nothing else changes. -/
theorem run_hasExported
    (plain : tree.IsPlain)
    {directory : Place}
    (canHold : CanHold tree directory)
    (options : ExportOptions)
    {time : String}
    (isTime : Text.IsWholeText time)
    {files : List RenderedFile}
    (ordinary : ∀ file ∈ files, IsOrdinaryFile file)
    (apart : (files.map (·.path)).Nodup)
    (noneManifest : ∀ file ∈ files, ¬ [Manifest.fileName] <+: Path.segments file.path)
    (manifestFree : tree.directory? (directory ++ [Manifest.fileName]) ≠ some true) :
    ∃ outcomes exporter final,
      ((start (.fromRoot directory) options time).run files).inTree tree = (.ok exporter, final) ∧
        HasExported tree final directory options files outcomes exporter := by
  obtain ⟨outcomes, left, ran, added⟩ := exists_added plain canHold options time ordinary apart
  rw [ran]
  split
  · rename_i wanted
    have writable : ∀ record ∈ (noting directory options time outcomes).records,
        Text.IsWholeText record.path ∧ Text.IsWholeText record.digest :=
      isWholeText_of_ended ordinary added.ended
    have isDirectory : (noting directory options time outcomes).directory = .fromRoot directory :=
      rfl
    obtain ⟨final, aim, exporter, isNoted, isPut, sameRecords, sameErrors, sameManifest⟩ :=
      inTree_addManifest_of_ordinary added.plain isDirectory canHold.ordinary isTime writable
    exact ⟨outcomes, exporter, final, isNoted, added.hasExported_of_isPut noneManifest manifestFree
      wanted isPut sameRecords sameErrors sameManifest⟩
  · rename_i silent
    exact ⟨outcomes, _, left, rfl, added.hasExported_silent time silent⟩

/-- A preserved file stands in the way of a directory, and a directory that is made on the way
stands in the way of a file. -/
theorem run_hasExported_over_conflicts :
    let tree : FileTree := ⟨["work"], [(["work"], .directory), (["work", "out"], .directory),
      (["work", "out", ".git"], .file [104]), (["work", "out", "old.ts"], .file [])]⟩
    let files : List RenderedFile := [⟨".git/y.ts", "y"⟩, ⟨"d/e.ts", "e\n"⟩, ⟨"d", "d"⟩,
      ⟨"f.ts", "f"⟩]
    let options : ExportOptions := ⟨true, true, true⟩
    ∃ outcomes exporter final,
      ((start (.fromRoot ["work", "out"]) options "2026-01-01T00:00:00").run files).inTree tree =
          (.ok exporter, final) ∧
        HasExported tree final ["work", "out"] options files outcomes exporter := by
  refine run_hasExported (isPlain_of_hasPlainEntries (by decide))
    ⟨areOrdinary_of_ascii (by decide), ⟨by decide, by decide⟩, by decide⟩ ⟨true, true, true⟩
    (Text.isWholeText_of_ascii (by decide)) ?_ (by decide) (by decide) (by decide)
  simp only [List.forall_mem_cons]
  exact ⟨⟨⟨[".git", "y.ts"], by decide, areOrdinary_of_ascii (by decide), by decide⟩, by decide⟩,
    ⟨⟨["d", "e.ts"], by decide, areOrdinary_of_ascii (by decide), by decide⟩, by decide⟩,
    ⟨⟨["d"], by decide, areOrdinary_of_ascii (by decide), by decide⟩, by decide⟩,
    ⟨⟨["f.ts"], by decide, areOrdinary_of_ascii (by decide), by decide⟩, by decide⟩,
    List.forall_mem_nil _⟩

/-- Where a file is above the directory, an export notes one error, and none about any file. -/
theorem run_without_outcomes :
    let tree : FileTree := ⟨["work"], [(["work"], .directory), (["work", "out"], .file [120])]⟩
    let files : List RenderedFile := [⟨"a.ts", "x"⟩, ⟨"b.ts", "y"⟩]
    tree.IsPlain ∧ tree.get? ["work", "out", "gen"] = none ∧
      ∃ exporter,
        ((start (.fromRoot ["work", "out", "gen"]) ⟨false, true, false⟩
            "2026-01-01T00:00:00").run files).inTree tree = (.ok exporter, tree) ∧
          exporter.records.length + exporter.errors.length ≠ files.length := by
  intro tree files
  have plain : tree.IsPlain :=
    isPlain_of_hasPlainEntries (by decide)
  have ordinary : ∀ name ∈ ["work", "out", "gen"], IsOrdinary name :=
    areOrdinary_of_ascii (by decide)
  have rooted := isRooted_of_ordinary ordinary
  let exporter := start (.fromRoot ["work", "out", "gen"]) ⟨false, true, false⟩
    "2026-01-01T00:00:00"
  have ran := @inTree_run_of_prepared tree tree plain exporter ["work", "out", "gen"] rfl rfl rooted
    (by decide) files
  have blocked : tree.makeAlong [] ["work", "out", "gen"] = (tree, none) := by
    decide
  rw [blocked] at ran
  obtain ⟨refusal, text, isFatal⟩ := ran
  exact ⟨plain, by decide, _, isFatal, (by decide : 0 + 1 ≠ 2)⟩

end Exporter

end Export

end ZodSchemas
