import ZodSchemas.Proofs.Cleaning
import ZodSchemas.Proofs.FileWriting
import ZodSchemas.Proofs.WholeTexts

namespace ZodSchemas

/-!
# The course of an export

An export prepares its directory, makes it, adds one file after the other and
then the manifest.  From the time its directory is prepared on it takes nothing
away: whatever stands somewhere keeps standing there as an entry of its kind.
-/

open FileTree Change

namespace FileTree

variable {tree : FileTree}

/-- Names other than `..` aim a file at the place that they spell. -/
theorem place_of_aim
    (plain : tree.IsPlain)
    {path : FilePath}
    (down : ∀ name ∈ path.names, name ≠ "..")
    {whole : Bool}
    {place : Place}
    (found : (tree.aim path whole).2 = .found place) :
    place = path.names := by
  unfold aim at found
  split at found
  · rename_i fault _
    cases fault <;> contradiction
  · obtain ⟨stillPlain, -, reaches⟩ := makeAlong_spec plain tree.get?_root path.names.dropLast
    rcases along : tree.makeAlong [] path.names.dropLast with ⟨later, _ | directory⟩ <;>
      rw [along] at found stillPlain reaches
    · contradiction
    · dsimp only at found
      split at found
      · unfold aimFrom at found
        split at found
        · rename_i fault _
          cases fault <;> contradiction
        · have reached := reaches directory rfl
          have isDirectory := get?_of_reach stillPlain later.get?_root reached
          obtain ⟨name, isLast, -, shape, -⟩ := aimIn_eq_found stillPlain isDirectory found
          have outer := place_of_reach
            (fun name member => down name (List.dropLast_subset _ member)) reached
          obtain ⟨names, isNames⟩ := List.getLast?_eq_some_iff.mp isLast
          rw [shape, outer, List.nil_append, isNames, List.dropLast_concat]
      · contradiction

end FileTree

/-- A relative path of names that lead down goes on below a directory. -/
theorem FilePath.below_ofText
    (directory : Place)
    {path : String}
    (relative : Path.isAbsolute path = false)
    (descends : ∀ name ∈ Path.segments path, Path.Descends name) :
    (fromRoot directory).below (.ofText path) = .fromRoot (directory ++ Path.segments path) := by
  have noneDropped : (Path.segments path).filter (· ≠ ".") = Path.segments path :=
    List.filter_eq_self.mpr fun name member => by simpa using (descends name member).notHere
  have noSlash : Path.rootSlashes path = 0 :=
    Path.rootSlashes_eq_zero_iff.mpr relative
  rw [ofText, noneDropped, noSlash, below]
  rfl

namespace Export.Exporter

variable {tree : FileTree}

theorem pathOf_manifest
    {exporter : Exporter}
    {directory : Place}
    (isDirectory : exporter.directory = .fromRoot directory) :
    exporter.pathOf exporter.manifest.file = .fromRoot (directory ++ [Manifest.fileName]) := by
  have isSegment : Path.IsSegment Manifest.fileName :=
    ⟨by decide, by decide⟩
  have segments : Path.segments Manifest.fileName = [Manifest.fileName] :=
    Path.segments_of_isSegment isSegment
  have descends : ∀ name ∈ Path.segments Manifest.fileName, Path.Descends name := by
    rw [segments, List.forall_mem_singleton]
    exact ⟨isSegment, by decide, by decide⟩
  have below := FilePath.below_ofText directory rfl descends
  rw [pathOf, isDirectory]
  rwa [segments] at below

/-- An exporter that goes on with the settings of another one. -/
structure GoesOnAs (exporter later : Exporter) : Prop where
  directory : later.directory = exporter.directory
  options : later.options = exporter.options
  time : later.time = exporter.time

theorem GoesOnAs.trans
    {exporter middle later : Exporter}
    (first : exporter.GoesOnAs middle)
    (second : middle.GoesOnAs later) :
    exporter.GoesOnAs later :=
  ⟨second.directory.trans first.directory, second.options.trans first.options,
    second.time.trans first.time⟩

theorem EndsAdding.goesOnAs
    {exporter added : Exporter}
    {file : RenderedFile}
    {aim : Aim}
    (ends : EndsAdding exporter file aim (.ok added)) :
    exporter.GoesOnAs added := by
  cases ends <;> exact ⟨rfl, rfl, rfl⟩

/-- Adding a file keeps a tree without links, and what was there. -/
theorem inTree_addFile_spec
    (plain : tree.IsPlain)
    {exporter : Exporter}
    (rooted : exporter.directory.IsRooted)
    {file : RenderedFile}
    (isText : Text.IsText file.path) :
    ((exporter.addFile file).inTree tree).2.IsPlain ∧
      tree.GrowsTo ((exporter.addFile file).inTree tree).2 ∧
      ∀ added, ((exporter.addFile file).inTree tree).1 = .ok added → exporter.GoesOnAs added := by
  obtain ⟨result, added, ends⟩ :=
    inTree_addFile plain exporter file (rooted.below_ofText isText)
  have aimed := isAimed_aim plain (exporter.pathOf file) (Text.isWhole file.content)
  rw [added]
  dsimp only
  refine ⟨aimed.plain_hit _, aimed.grows.trans (aimed.grows_hit _), fun next isNext => ?_⟩
  cases isNext
  exact ends.goesOnAs

/-- Adding files keeps a tree without links, and what was there. -/
theorem inTree_addFiles
    (plain : tree.IsPlain)
    {exporter : Exporter}
    (rooted : exporter.directory.IsRooted)
    {files : List RenderedFile}
    (texts : ∀ file ∈ files, Text.IsText file.path) :
    ((files.foldlM addFile exporter).inTree tree).2.IsPlain ∧
      tree.GrowsTo ((files.foldlM addFile exporter).inTree tree).2 ∧
      ∀ added, ((files.foldlM addFile exporter).inTree tree).1 = .ok added →
        exporter.GoesOnAs added := by
  induction files generalizing tree exporter with
  | nil =>
      refine ⟨plain, .refl tree, fun added isAdded => ?_⟩
      cases isAdded
      exact ⟨rfl, rfl, rfl⟩
  | cons file files inductionHypothesis =>
      rw [List.forall_mem_cons] at texts
      obtain ⟨stillPlain, grows, goesOn⟩ := inTree_addFile_spec plain rooted texts.1
      rw [List.foldlM_cons, inTree_bind]
      rcases added : (exporter.addFile file).inTree tree with ⟨fault | next, left⟩ <;>
        rw [added] at stillPlain grows goesOn
      · exact ⟨stillPlain, grows, by simp⟩
      · have first := goesOn next rfl
        obtain ⟨plainToo, growsToo, goesOnToo⟩ :=
          inductionHypothesis stillPlain (first.directory ▸ rooted) texts.2
        exact ⟨plainToo, grows.trans growsToo, fun last isLast =>
          first.trans (goesOnToo last isLast)⟩

/-- How adding the manifest ends, by what it has been aimed at. -/
inductive EndsNoting (exporter : Exporter) : Aim → Except FileFault Exporter → Prop where
  | written (place : Place) : EndsNoting exporter (.found place) (.ok exporter)
  | warned (refusal : Refusal) (text : String) :
      EndsNoting exporter .refused
        (.ok (exporter.addWarnings
          ["Could not write manifest: " ++ (FileFault.refused refusal text).message]))
  | stopped (fault : FileFault) (isLast : fault.isRefused = false) :
      EndsNoting exporter .broken (.error fault)

/-- A manifest is written as a file, and a warning remains where that is refused. -/
theorem inTree_addManifest
    (plain : tree.IsPlain)
    (exporter : Exporter)
    (rooted : (exporter.pathOf exporter.manifest.file).IsRooted) :
    ∃ result,
      exporter.addManifest.inTree tree =
          (result, (tree.aim (exporter.pathOf exporter.manifest.file)
            (Text.isWhole exporter.manifest.file.content)).1.hit
            (Text.encodeUtf8 exporter.manifest.file.content)
            (tree.aim (exporter.pathOf exporter.manifest.file)
              (Text.isWhole exporter.manifest.file.content)).2) ∧
        EndsNoting exporter
          (tree.aim (exporter.pathOf exporter.manifest.file)
            (Text.isWhole exporter.manifest.file.content)).2 result := by
  obtain ⟨written, isWritten, ends⟩ :=
    inTree_writeFile plain exporter exporter.manifest.file rooted
  rw [addManifest, inTree_bind, inTree_attempt, isWritten]
  generalize tree.aim (exporter.pathOf exporter.manifest.file)
    (Text.isWhole exporter.manifest.file.content) = aimed at ends ⊢
  rcases aimed with ⟨later, aim⟩
  cases ends with
  | found place =>
      exact ⟨_, rfl, .written place⟩
  | refused refusal text =>
      exact ⟨_, rfl, .warned refusal text⟩
  | broken fault isLast =>
      dsimp only
      rw [recover, if_neg (by simp [isLast])]
      exact ⟨_, rfl, .stopped fault isLast⟩

theorem inTree_writeAll
    (exporter : Exporter)
    (files : List RenderedFile) :
    (exporter.writeAll files).inTree tree =
      match (files.foldlM addFile exporter).inTree tree with
      | (.ok written, left) =>
          if written.options.writesManifest then written.addManifest.inTree left
          else (.ok written, left)
      | (.error fault, left) => (.error fault, left) := by
  rw [writeAll, inTree_bind]
  rcases (files.foldlM addFile exporter).inTree tree with ⟨fault | written, left⟩
  · rfl
  · dsimp only
    split <;> rfl

theorem inTree_prepare
    (exporter : Exporter) :
    exporter.prepare.inTree tree =
      if exporter.options.cleansFirst then (cleanDirectory exporter.directory).inTree tree
      else (.ok [], tree) := by
  unfold prepare
  split
  · rw [inTree_bind]
    rcases (cleanDirectory exporter.directory).inTree tree with ⟨_ | _, left⟩ <;> rfl
  · rfl

/-- The manifest takes nothing away that stands once the files are written. -/
theorem inTree_writeAll_spec
    (plain : tree.IsPlain)
    {exporter : Exporter}
    (rooted : exporter.directory.IsRooted)
    {files : List RenderedFile}
    (texts : ∀ file ∈ files, Text.IsText file.path) :
    ((exporter.writeAll files).inTree tree).2.IsPlain ∧
      ((files.foldlM addFile exporter).inTree tree).2.GrowsTo
        ((exporter.writeAll files).inTree tree).2 := by
  obtain ⟨stillPlain, -, goesOn⟩ := inTree_addFiles plain rooted texts
  rw [inTree_writeAll]
  rcases added : (files.foldlM addFile exporter).inTree tree with ⟨fault | written, left⟩ <;>
    rw [added] at stillPlain goesOn
  · exact ⟨stillPlain, .refl left⟩
  · dsimp only
    split
    · have isRooted : (written.pathOf written.manifest.file).IsRooted :=
        ((goesOn written rfl).directory ▸ rooted).below_ofText Manifest.isText_fileName
      obtain ⟨result, noted, -⟩ := inTree_addManifest stillPlain written isRooted
      have aimed := isAimed_aim stillPlain (written.pathOf written.manifest.file)
        (Text.isWhole written.manifest.file.content)
      rw [noted]
      dsimp only
      exact ⟨aimed.plain_hit _, aimed.grows.trans (aimed.grows_hit _)⟩
    · exact ⟨stillPlain, .refl left⟩

theorem inTree_recover
    (fault : FileFault)
    (exporter : Exporter) :
    (recover fault exporter).inTree tree =
      (if fault.isRefused then .ok exporter else .error fault, tree) := by
  unfold recover
  split <;> rfl

/-- The report about a directory that cannot be prepared. -/
def addFatal (exporter : Exporter) (fault : FileFault) : Exporter :=
  exporter.addError ("Fatal export error: " ++ fault.report)

theorem inTree_run
    (exporter : Exporter)
    (files : List RenderedFile) :
    (exporter.run files).inTree tree =
      match exporter.prepare.inTree tree with
      | (.error fault, left) => (recover fault (exporter.addFatal fault)).inTree left
      | (.ok reports, left) =>
          match (ensureDirectory exporter.directory).inTree left with
          | (.error fault, left) =>
              (recover fault ((exporter.addWarnings reports).addFatal fault)).inTree left
          | (.ok _, left) => ((exporter.addWarnings reports).writeAll files).inTree left := by
  rw [run, inTree_bind, inTree_attempt]
  rcases exporter.prepare.inTree tree with ⟨fault | reports, left⟩
  · rfl
  · have sameDirectory : (exporter.addWarnings reports).directory = exporter.directory :=
      rfl
    dsimp only
    rw [inTree_bind, inTree_attempt, sameDirectory]
    rcases (ensureDirectory exporter.directory).inTree left with ⟨fault | made, left⟩ <;> rfl

/-- The places that an export empties before it writes. -/
def Clears (options : ExportOptions) (directory place : Place) : Prop :=
  options.cleansFirst = true ∧ IsCleared directory place

/-- What preparing a directory leaves: nothing where the directory is to be cleaned, and all
else. -/
structure IsPrepared (options : ExportOptions) (directory : Place) (tree left : FileTree) :
    Prop where
  plain : left.IsPlain
  inside : ∀ place, Clears options directory place → left.get? place = none
  outside : ∀ place, ¬ Clears options directory place → left.get? place = tree.get? place

/-- Preparing a directory changes nothing if it is refused, and otherwise empties what is to be
cleaned. -/
theorem inTree_prepare_spec
    (plain : tree.IsPlain)
    (exporter : Exporter)
    {directory : Place}
    (isDirectory : exporter.directory = .fromRoot directory)
    (rooted : exporter.directory.IsRooted)
    (fits : exporter.directory.fault? = none)
    (down : ∀ name ∈ directory, name ≠ "..") :
    (∃ refusal text, exporter.prepare.inTree tree = (.error (.refused refusal text), tree) ∧
        ∃ blocked, tree.reach [] directory = .error blocked ∧ blocked ≠ .missing) ∨
      ∃ left, exporter.prepare.inTree tree = (.ok [], left) ∧
        IsPrepared exporter.options directory tree left := by
  have sameNames : exporter.directory.names = directory :=
    congrArg FilePath.names isDirectory
  rw [inTree_prepare]
  split
  · rename_i cleans
    cases reached : tree.reach [] exporter.directory.names with
    | ok place =>
        have isPlace : place = directory := by
          rw [place_of_reach (sameNames ▸ down) reached, sameNames, List.nil_append]
        subst isPlace
        rw [inTree_cleanDirectory_of_reach plain rooted fits (sameNames ▸ down) reached]
        refine .inr ⟨_, rfl, plain.removeEach _ _, fun other clears => ?_, fun other kept => ?_⟩
        · exact plain.isConnected.get?_cleaned clears.2
        · exact get?_cleaned_of_kept fun isCleared => kept ⟨cleans, isCleared⟩
    | error refusal =>
        obtain ⟨result, unchanged, ⟨rfl, short⟩ | ⟨⟨other, text, rfl⟩, present⟩⟩ :=
          inTree_cleanDirectory_of_reach_error plain rooted fits reached
        · refine .inr ⟨tree, unchanged, plain, fun other clears => ?_, fun _ _ => rfl⟩
          obtain ⟨-, name, rest, rfl, -⟩ := clears
          have absent : tree.get? directory ≠ some .directory := by
            rw [sameNames] at reached
            exact get?_of_reach_error plain tree.get?_root down reached short
          exact plain.get?_append_eq_none absent (List.cons_ne_nil name rest)
        · exact .inl ⟨other, text, unchanged, refusal, sameNames ▸ reached, present⟩
  · rename_i keeps
    exact .inr ⟨tree, rfl, plain, fun _ clears => absurd clears.1 keeps, fun _ _ => rfl⟩

theorem addWarnings_nil
    (exporter : Exporter) :
    exporter.addWarnings [] = exporter := by
  rw [addWarnings, List.append_nil]

/-- A directory that cannot be prepared ends the export. -/
theorem inTree_run_of_refused
    {exporter : Exporter}
    {refusal : Refusal}
    {text : String}
    (isRefused : exporter.prepare.inTree tree = (.error (.refused refusal text), tree))
    (files : List RenderedFile) :
    (exporter.run files).inTree tree =
      (.ok (exporter.addFatal (.refused refusal text)), tree) := by
  rw [inTree_run, isRefused]
  rfl

/-- Once its directory is prepared, an export makes it and writes all files; where it cannot be made
that is reported and no file is written. -/
theorem inTree_run_of_prepared
    {left : FileTree}
    (plain : left.IsPlain)
    {exporter : Exporter}
    {directory : Place}
    (isDirectory : exporter.directory = .fromRoot directory)
    (isPrepared : exporter.prepare.inTree tree = (.ok [], left))
    (rooted : exporter.directory.IsRooted)
    (fits : exporter.directory.fault? = none)
    (files : List RenderedFile) :
    match left.makeAlong [] directory with
    | (made, some _) => (exporter.run files).inTree tree = (exporter.writeAll files).inTree made
    | (made, none) => ∃ refusal text,
        (exporter.run files).inTree tree =
          (.ok (exporter.addFatal (.refused refusal text)), made) := by
  obtain ⟨result, isMade, ends⟩ := inTree_ensureDirectory plain rooted fits
  have sameNames : exporter.directory.names = directory :=
    congrArg FilePath.names isDirectory
  rw [sameNames] at isMade ends
  rw [inTree_run, isPrepared]
  dsimp only
  rw [isMade, addWarnings_nil]
  rcases along : left.makeAlong [] directory with ⟨made, last⟩
  rw [along] at ends
  cases ends with
  | made place =>
      rfl
  | refused refusal text =>
      exact ⟨refusal, text, rfl⟩

/-- What stands once the directory is made stands at the end. -/
theorem grows_run_of_prepared
    {left : FileTree}
    (plain : left.IsPlain)
    {exporter : Exporter}
    {directory : Place}
    (isDirectory : exporter.directory = .fromRoot directory)
    (isPrepared : exporter.prepare.inTree tree = (.ok [], left))
    (rooted : exporter.directory.IsRooted)
    (fits : exporter.directory.fault? = none)
    {files : List RenderedFile}
    (texts : ∀ file ∈ files, Text.IsText file.path) :
    ((exporter.run files).inTree tree).2.IsPlain ∧
      (left.makeAlong [] directory).1.GrowsTo
        ((exporter.run files).inTree tree).2 := by
  obtain ⟨stillPlain, -, -⟩ := makeAlong_spec plain left.get?_root directory
  have ran := inTree_run_of_prepared plain isDirectory isPrepared rooted fits files
  rcases along : left.makeAlong [] directory with ⟨made, _ | place⟩ <;>
    rw [along] at stillPlain ran
  · obtain ⟨refusal, text, isFatal⟩ := ran
    rw [isFatal]
    exact ⟨stillPlain, .refl made⟩
  · obtain ⟨-, grows, -⟩ := inTree_addFiles stillPlain rooted texts
    obtain ⟨plainToo, growsToo⟩ := inTree_writeAll_spec stillPlain rooted texts
    dsimp only at ran ⊢
    rw [ran]
    exact ⟨plainToo, grows.trans growsToo⟩

/-- A path whose text is at fault ends the export before it changes anything. -/
theorem inTree_run_of_fault
    (exporter : Exporter)
    {fault : FileFault}
    (found : exporter.directory.fault? = some fault)
    (files : List RenderedFile) :
    ((exporter.run files).inTree tree).2 = tree := by
  have prepared : ∃ result, exporter.prepare.inTree tree = (result, tree) := by
    rw [inTree_prepare]
    split
    · obtain ⟨result, unchanged, -⟩ :=
        inTree_cleanDirectory_of_error (tree.locate_of_fault found .target)
      exact ⟨result, unchanged⟩
    · exact ⟨_, rfl⟩
  obtain ⟨result, unchanged⟩ := prepared
  rw [inTree_run, unchanged]
  cases result with
  | error other =>
      dsimp only
      rw [inTree_recover]
  | ok reports =>
      dsimp only
      rw [inTree_ensureDirectory_of_fault found]
      dsimp only
      rw [inTree_recover]

/-- An export makes no links, and puts everything into a directory. -/
theorem isPlain_run
    (plain : tree.IsPlain)
    {exporter : Exporter}
    {directory : Place}
    (isDirectory : exporter.directory = .fromRoot directory)
    (rooted : exporter.directory.IsRooted)
    (down : ∀ name ∈ directory, name ≠ "..")
    {files : List RenderedFile}
    (texts : ∀ file ∈ files, Text.IsText file.path) :
    ((exporter.run files).inTree tree).2.IsPlain := by
  cases faulty : exporter.directory.fault? with
  | some fault =>
      rw [inTree_run_of_fault exporter faulty]
      exact plain
  | none =>
      rcases inTree_prepare_spec plain exporter isDirectory rooted faulty down with
        ⟨refusal, text, isRefused, -⟩ | ⟨left, isPrepared, prepared⟩
      · rw [inTree_run_of_refused isRefused]
        exact plain
      · exact (grows_run_of_prepared prepared.plain isDirectory isPrepared rooted faulty texts).1

end Export.Exporter

end ZodSchemas
