import ZodSchemas.Proofs.OutputDirectories

namespace ZodSchemas

/-!
# Repeated exports

A second export of the same files starts where the first one has ended.  Outside
what is cleaned it finds everything that the first one has made, and nothing of
another kind; inside it finds what the first one found.  So each of its steps
ends as the corresponding step of the first one, and what it overwrites it
overwrites with the same bytes.
-/

namespace FileTree

/-- A second export has reached the tree `again` where the first one had reached `tree` on its way
to `final`: what has been cleaned is the same, and elsewhere everything has the kind that it has at
the end, with the entry of either tree. -/
structure Retraces (cleared : Place → Prop) (final tree again : FileTree) : Prop where
  plain : tree.IsPlain
  plainAgain : again.IsPlain
  inside : ∀ place, cleared place → again.get? place = tree.get? place
  kind : ∀ place, ¬ cleared place → again.directory? place = final.directory? place
  outside : ∀ place, ¬ cleared place →
    again.get? place = tree.get? place ∨ again.get? place = final.get? place

/-- Whether a name is too long does not depend on the tree. -/
theorem stepTo_eq_error
    {tree : FileTree}
    {directory : Place}
    {name : String}
    {refusal : Refusal}
    (isError : tree.stepTo directory name = .error refusal)
    (other : FileTree) :
    other.stepTo directory name = .error refusal := by
  unfold stepTo at isError ⊢
  split at isError
  · contradiction
  · rename_i notUp
    split at isError
    · rename_i tooLong
      rw [if_neg notUp, if_pos tooLong, ← isError]
    · contradiction

namespace Retraces

variable {cleared : Place → Prop} {final tree again : FileTree}

/-- What the first export finds, and keeps to its end, the second one finds too. -/
theorem directory?_of_some
    (retraces : Retraces cleared final tree again)
    (grows : tree.GrowsTo final)
    {place : Place}
    {kind : Bool}
    (isKind : tree.directory? place = some kind) :
    again.directory? place = some kind := by
  by_cases isCleared : cleared place
  · rw [directory?, retraces.inside place isCleared]
    exact isKind
  · rw [retraces.kind place isCleared]
    exact grows place kind isKind

theorem get?_directory
    (retraces : Retraces cleared final tree again)
    (grows : tree.GrowsTo final)
    {place : Place}
    (isDirectory : tree.get? place = some .directory) :
    again.get? place = some .directory :=
  directory?_eq_some_true_iff.mp
    (retraces.directory?_of_some grows (directory?_eq_some_true_iff.mpr isDirectory))

theorem get?_file
    (retraces : Retraces cleared final tree again)
    (grows : tree.GrowsTo final)
    {place : Place}
    {bytes : List UInt8}
    (isFile : tree.get? place = some (.file bytes)) :
    ∃ others, again.get? place = some (.file others) :=
  retraces.plainAgain.directory?_eq_some_false_iff.mp
    (retraces.directory?_of_some grows
      (retraces.plain.directory?_eq_some_false_iff.mpr ⟨bytes, isFile⟩))

/-- Where nothing is cleared away, the second export finds what the first one makes. -/
theorem directory?_of_made
    (retraces : Retraces cleared final tree again)
    {place : Place}
    {kind : Bool}
    (nothing : tree.get? place = none)
    (isKind : final.directory? place = some kind) :
    again.get? place = none ∧ cleared place ∨ again.directory? place = some kind := by
  by_cases isCleared : cleared place
  · rw [retraces.inside place isCleared]
    exact .inl ⟨nothing, isCleared⟩
  · rw [retraces.kind place isCleared]
    exact .inr isKind

/-- What both exports put at a place they have in common. -/
theorem put
    (retraces : Retraces cleared final tree again)
    {place : Place}
    {entry : FileEntry}
    (notRoot : place ≠ [])
    (plain : (tree.put place entry).IsPlain)
    (plainAgain : (again.put place entry).IsPlain)
    (isKind : final.directory? place = some (entry == .directory)) :
    Retraces cleared final (tree.put place entry) (again.put place entry) where
  plain := plain
  plainAgain := plainAgain
  inside other isCleared := by
    rw [get?_put notRoot, get?_put notRoot, retraces.inside other isCleared]
  kind other isKept := by
    rw [directory?_put notRoot]
    split
    · rename_i same
      rw [same, isKind]
    · exact retraces.kind other isKept
  outside other isKept := by
    rw [get?_put notRoot, get?_put notRoot]
    split
    · exact .inl rfl
    · exact retraces.outside other isKept

/-- A directory that the first export makes may be there for the second one. -/
theorem put_directory
    (retraces : Retraces cleared final tree again)
    {place : Place}
    (notRoot : place ≠ [])
    (plain : (tree.put place .directory).IsPlain)
    (isThere : again.get? place = some .directory) :
    Retraces cleared final (tree.put place .directory) again where
  plain := plain
  plainAgain := retraces.plainAgain
  inside other isCleared := by
    rw [get?_put notRoot]
    split
    · rename_i same
      rw [same, isThere]
    · exact retraces.inside other isCleared
  kind := retraces.kind
  outside other isKept := by
    rw [get?_put notRoot]
    split
    · rename_i same
      exact .inl (same ▸ isThere)
    · exact retraces.outside other isKept

/-- A directory that the first export makes is made by the second one too where it has been cleared
away, and found otherwise. -/
theorem made_or_found
    (retraces : Retraces cleared final tree again)
    (grows : tree.GrowsTo final)
    {directory : Place}
    {name : String}
    (isDirectory : tree.get? directory = some .directory)
    (nothing : tree.get? (directory ++ [name]) = none)
    (isKind : final.directory? (directory ++ [name]) = some true) :
    again.get? (directory ++ [name]) = none ∧
        Retraces cleared final (tree.put (directory ++ [name]) .directory)
          (again.put (directory ++ [name]) .directory) ∨
      again.get? (directory ++ [name]) = some .directory ∧
        Retraces cleared final (tree.put (directory ++ [name]) .directory) again := by
  have notRoot : directory ++ [name] ≠ [] := by
    simp
  have plain := retraces.plain.put_directory isDirectory name
  rcases retraces.directory?_of_made nothing isKind with ⟨nothingToo, -⟩ | isThere
  · have plainAgain :=
      retraces.plainAgain.put_directory (retraces.get?_directory grows isDirectory) name
    exact .inl ⟨nothingToo, retraces.put notRoot plain plainAgain isKind⟩
  · have isFound := directory?_eq_some_true_iff.mp isThere
    exact .inr ⟨isFound, retraces.put_directory notRoot plain isFound⟩

/-- Making directories comes to the same end twice. -/
theorem makeAlong
    (retraces : Retraces cleared final tree again)
    {directory : Place}
    (isDirectory : tree.get? directory = some .directory)
    (names : List String)
    (grows : (tree.makeAlong directory names).1.GrowsTo final) :
    Retraces cleared final (tree.makeAlong directory names).1 (again.makeAlong directory names).1 ∧
      (again.makeAlong directory names).2 = (tree.makeAlong directory names).2 := by
  have kept := (makeAlong_spec retraces.plain isDirectory names).2.1.trans grows
  induction names generalizing tree again directory with
  | nil =>
      exact ⟨retraces, rfl⟩
  | cons name names inductionHypothesis =>
      rw [FileTree.makeAlong] at grows ⊢
      rw [FileTree.makeAlong]
      rcases stepTo_cases retraces.plain isDirectory name with
        tooLong | ⟨inner, isInner, found⟩ | ⟨bytes, isFile, found⟩ | ⟨isMissing, nothing⟩
      · rw [tooLong, stepTo_eq_error tooLong]
        exact ⟨retraces, rfl⟩
      · rw [isInner] at grows ⊢
        rw [stepTo_of_stepTo isInner, retraces.get?_directory kept found]
        exact inductionHypothesis retraces found grows kept
      · obtain ⟨others, isFileToo⟩ := retraces.get?_file kept found
        rw [isFile, stepTo_of_stepTo isFile, isFileToo]
        exact ⟨retraces, rfl⟩
      · rw [isMissing] at grows ⊢
        rw [stepTo_of_stepTo isMissing]
        have plain := retraces.plain.put_directory isDirectory name
        have isMade := tree.get?_put_concat directory name .directory
        have keptToo := (makeAlong_spec plain isMade names).2.1.trans grows
        have isKind : final.directory? (directory ++ [name]) = some true :=
          keptToo _ _ (directory?_eq_some_true_iff.mpr isMade)
        rcases retraces.made_or_found kept isDirectory nothing isKind with
          ⟨nothingToo, next⟩ | ⟨isThere, next⟩
        · rw [nothingToo]
          exact inductionHypothesis next isMade grows keptToo
        · rw [isThere]
          exact inductionHypothesis next isMade grows keptToo

/-- A file is aimed at the same place twice. -/
theorem aimIn
    (retraces : Retraces cleared final tree again)
    {directory : Place}
    (isDirectory : tree.get? directory = some .directory)
    (name? : Option String)
    {bytes : List UInt8}
    (grows : (tree.hit bytes (tree.aimIn directory name?)).GrowsTo final)
    (kept : tree.GrowsTo final) :
    again.aimIn directory name? = tree.aimIn directory name? := by
  cases name? with
  | none =>
      rfl
  | some name =>
      rw [FileTree.aimIn] at grows ⊢
      rw [FileTree.aimIn]
      rcases stepTo_cases retraces.plain isDirectory name with
        tooLong | ⟨inner, isInner, found⟩ | ⟨old, isFile, found⟩ | ⟨isMissing, nothing⟩
      · rw [tooLong, stepTo_eq_error tooLong]
      · rw [isInner, stepTo_of_stepTo isInner, retraces.get?_directory kept found]
      · obtain ⟨others, isFileToo⟩ := retraces.get?_file kept found
        rw [isFile, stepTo_of_stepTo isFile, isFileToo]
      · rw [isMissing] at grows ⊢
        rw [stepTo_of_stepTo isMissing]
        have isKind : final.directory? (directory ++ [name]) = some false :=
          grows _ _ (by rw [hit, directory?_put (by simp), if_pos rfl]; rfl)
        rcases retraces.directory?_of_made nothing isKind with ⟨nothingToo, -⟩ | isThere
        · rw [nothingToo]
        · obtain ⟨others, isFileToo⟩ :=
            retraces.plainAgain.directory?_eq_some_false_iff.mp isThere
          rw [isFileToo]

/-- The way to a file comes to the same end twice. -/
theorem aim
    (retraces : Retraces cleared final tree again)
    (path : FilePath)
    (whole : Bool)
    {bytes : List UInt8}
    (grows : ((tree.aim path whole).1.hit bytes (tree.aim path whole).2).GrowsTo final) :
    Retraces cleared final (tree.aim path whole).1 (again.aim path whole).1 ∧
      (again.aim path whole).2 = (tree.aim path whole).2 := by
  have kept :=
    ((isAimed_aim retraces.plain path whole).grows_hit bytes).trans grows
  unfold FileTree.aim at grows kept ⊢
  cases faulty : path.parent.fault? with
  | some fault =>
      exact ⟨retraces, rfl⟩
  | none =>
      rw [faulty] at grows kept
      dsimp only at grows kept ⊢
      obtain ⟨stillPlain, -, reaches⟩ :=
        makeAlong_spec retraces.plain tree.get?_root path.names.dropLast
      have made := retraces.makeAlong tree.get?_root path.names.dropLast
      rcases along : tree.makeAlong [] path.names.dropLast with ⟨later, last⟩
      rcases alongToo : again.makeAlong [] path.names.dropLast with ⟨laterAgain, lastAgain⟩
      rw [along] at stillPlain reaches made grows kept
      rw [alongToo] at made
      cases last with
      | none =>
          obtain ⟨next, same⟩ := made kept
          cases same
          exact ⟨next, rfl⟩
      | some directory =>
          obtain ⟨next, same⟩ := made kept
          cases same
          refine ⟨next, ?_⟩
          have isDirectory := get?_of_reach stillPlain later.get?_root (reaches directory rfl)
          cases whole with
          | false =>
              rfl
          | true =>
              simp only [if_true, aimFrom] at grows ⊢
              cases found : path.fault? with
              | some fault =>
                  rfl
              | none =>
                  rw [found] at grows
                  exact next.aimIn isDirectory path.names.getLast? grows kept

/-- A file is put where it has been put before. -/
theorem hit
    (retraces : Retraces cleared final tree again)
    {origin originAgain : FileTree}
    {aim : Aim}
    (aimed : origin.IsAimed tree aim)
    (aimedAgain : originAgain.IsAimed again aim)
    {bytes : List UInt8}
    (grows : (tree.hit bytes aim).GrowsTo final) :
    Retraces cleared final (tree.hit bytes aim) (again.hit bytes aim) := by
  cases aim with
  | found place =>
      obtain ⟨directory, name, shape, -, -⟩ := aimed.free place rfl
      have notRoot : place ≠ [] := by
        simp [shape]
      refine retraces.put notRoot (aimed.plain_hit bytes) (aimedAgain.plain_hit bytes) ?_
      exact grows place false (by rw [FileTree.hit, directory?_put notRoot, if_pos rfl]; rfl)
  | refused | broken =>
      exact retraces

/-- Where the first export has ended, the second one finds what that has left. -/
theorem get?_eq
    (retraces : Retraces cleared final final again)
    (place : Place) :
    again.get? place = final.get? place := by
  by_cases isCleared : cleared place
  · exact retraces.inside place isCleared
  · exact (retraces.outside place isCleared).elim id id

end Retraces

/-- Two trees that hold the same, up to the time of a manifest below a directory. -/
def AgreeUpToTime (directory : Place) (time later : String) (first second : FileTree) : Prop :=
  ∀ place, second.get? place = first.get? place ∨
    place = directory ++ [Export.Manifest.fileName] ∧ ∃ records,
      first.get? place = some (.file (Text.encodeUtf8
        (Export.Manifest.file ⟨time, (FilePath.fromRoot directory).text, records⟩).content)) ∧
      second.get? place = some (.file (Text.encodeUtf8
        (Export.Manifest.file ⟨later, (FilePath.fromRoot directory).text, records⟩).content))

/-- Two exports that differ in nothing but the manifest, which is the last thing they put. -/
theorem Retraces.agreeUpToTime
    {cleared : Place → Prop}
    {tree again : FileTree}
    {directory : Place}
    {time later : String}
    {manifest manifestAgain : Export.Manifest}
    {records : List Export.Record}
    (isManifest : manifest = ⟨time, (FilePath.fromRoot directory).text, records⟩)
    (isManifestAgain : manifestAgain = ⟨later, (FilePath.fromRoot directory).text, records⟩)
    (retraces : Retraces cleared
      (tree.put (directory ++ [Export.Manifest.fileName])
        (.file (Text.encodeUtf8 manifest.file.content))) tree again) :
    AgreeUpToTime directory time later
      (tree.put (directory ++ [Export.Manifest.fileName])
        (.file (Text.encodeUtf8 manifest.file.content)))
      (again.put (directory ++ [Export.Manifest.fileName])
        (.file (Text.encodeUtf8 manifestAgain.file.content))) := by
  intro place
  have notRoot : directory ++ [Export.Manifest.fileName] ≠ [] := by
    simp
  simp only [get?_put notRoot]
  by_cases isPlace : place = directory ++ [Export.Manifest.fileName]
  · refine .inr ⟨isPlace, records, ?_, ?_⟩
    · rw [if_pos isPlace, isManifest]
    · rw [if_pos isPlace, isManifestAgain]
  · rw [if_neg isPlace, if_neg isPlace]
    refine .inl ?_
    by_cases isCleared : cleared place
    · exact retraces.inside place isCleared
    · refine (retraces.outside place isCleared).elim id fun isFinal => isFinal.trans ?_
      rw [get?_put notRoot, if_neg isPlace]

end FileTree

namespace Export.Exporter

open FileTree Change

/-- Exporters that have written the same files below the same directory. -/
structure IsLike (exporter other : Exporter) : Prop where
  directory : other.directory = exporter.directory
  options : other.options = exporter.options
  records : other.records = exporter.records

namespace IsLike

variable {exporter other : Exporter}

theorem pathOf
    (alike : exporter.IsLike other)
    (file : RenderedFile) :
    other.pathOf file = exporter.pathOf file := by
  rw [Exporter.pathOf, alike.directory, Exporter.pathOf]

theorem manifest
    (alike : exporter.IsLike other) :
    other.manifest = { exporter.manifest with time := other.time } := by
  rw [Exporter.manifest, Exporter.manifest, alike.directory, alike.records]

/-- Whether the text of the manifest can be written does not depend on its time. -/
theorem isWhole_manifest
    (alike : exporter.IsLike other)
    (isTime : Text.IsWholeText exporter.time)
    (isOther : Text.IsWholeText other.time) :
    Text.isWhole other.manifest.file.content = Text.isWhole exporter.manifest.file.content := by
  rw [alike.manifest]
  exact Manifest.isWhole_content_eq isTime isOther _ _

end IsLike

/-- Two runs that have both ended, with exporters that have written the same, or have both broken
off. -/
inductive EndAlike : Except FileFault Exporter → Except FileFault Exporter → Prop where
  | ended {exporter other : Exporter} (alike : exporter.IsLike other) :
      EndAlike (.ok exporter) (.ok other)
  | stopped (fault other : FileFault) : EndAlike (.error fault) (.error other)

variable {tree : FileTree}

/-- Adding the same file again comes to the same end. -/
theorem addFile_again
    {cleared : Place → Prop}
    {final again : FileTree}
    (retraces : Retraces cleared final tree again)
    {exporter other : Exporter}
    (alike : exporter.IsLike other)
    (rooted : exporter.directory.IsRooted)
    {file : RenderedFile}
    (isText : Text.IsText file.path)
    (grows : ((exporter.addFile file).inTree tree).2.GrowsTo final) :
    Retraces cleared final ((exporter.addFile file).inTree tree).2
        ((other.addFile file).inTree again).2 ∧
      EndAlike ((exporter.addFile file).inTree tree).1 ((other.addFile file).inTree again).1 := by
  have isRooted := rooted.below_ofText isText
  obtain ⟨result, added, ends⟩ := inTree_addFile retraces.plain exporter file isRooted
  obtain ⟨resultAgain, addedAgain, endsAgain⟩ :=
    inTree_addFile retraces.plainAgain other file (alike.pathOf file ▸ isRooted)
  rw [alike.pathOf file] at addedAgain endsAgain
  have aimed := isAimed_aim retraces.plain (exporter.pathOf file) (Text.isWhole file.content)
  have aimedAgain :=
    isAimed_aim retraces.plainAgain (exporter.pathOf file) (Text.isWhole file.content)
  rw [added] at grows ⊢
  rw [addedAgain]
  dsimp only at grows ⊢
  obtain ⟨next, same⟩ := retraces.aim _ _ grows
  rw [same] at aimedAgain endsAgain ⊢
  refine ⟨next.hit aimed aimedAgain grows, ?_⟩
  generalize (tree.aim (exporter.pathOf file) (Text.isWhole file.content)).2 = aim at ends endsAgain
  cases ends with
  | written place =>
      cases endsAgain
      refine .ended ⟨alike.directory, alike.options, ?_⟩
      rw [addRecord, addRecord, alike.records, alike.pathOf]
  | reported refusal text =>
      cases endsAgain
      exact .ended ⟨alike.directory, alike.options, alike.records⟩
  | stopped fault isLast =>
      cases endsAgain
      exact .stopped _ _

/-- Adding the same files again comes to the same end. -/
theorem addFiles_again
    {cleared : Place → Prop}
    {final again : FileTree}
    (retraces : Retraces cleared final tree again)
    {exporter other : Exporter}
    (alike : exporter.IsLike other)
    (rooted : exporter.directory.IsRooted)
    {files : List RenderedFile}
    (texts : ∀ file ∈ files, Text.IsText file.path)
    (grows : ((files.foldlM addFile exporter).inTree tree).2.GrowsTo final) :
    Retraces cleared final ((files.foldlM addFile exporter).inTree tree).2
        ((files.foldlM addFile other).inTree again).2 ∧
      EndAlike ((files.foldlM addFile exporter).inTree tree).1
        ((files.foldlM addFile other).inTree again).1 := by
  induction files generalizing tree again exporter other with
  | nil =>
      exact ⟨retraces, .ended alike⟩
  | cons file files inductionHypothesis =>
      rw [List.forall_mem_cons] at texts
      rw [List.foldlM_cons, inTree_bind] at grows ⊢
      rw [List.foldlM_cons, inTree_bind]
      have step := addFile_again retraces alike rooted texts.1
      obtain ⟨plain, -, goesOn⟩ := inTree_addFile_spec retraces.plain rooted texts.1
      rcases added : (exporter.addFile file).inTree tree with ⟨result, left⟩
      rcases addedAgain : (other.addFile file).inTree again with ⟨resultAgain, leftAgain⟩
      rw [added] at step grows plain goesOn
      rw [addedAgain] at step
      cases result with
      | error fault =>
          obtain ⟨next, alikeToo⟩ := step grows
          cases alikeToo with
          | stopped fault other =>
              exact ⟨next, .stopped fault other⟩
      | ok exporterThen =>
          have rootedThen : exporterThen.directory.IsRooted :=
            (goesOn exporterThen rfl).directory ▸ rooted
          -- What this file leaves stands at the end, because the files behind it only add.
          obtain ⟨-, later, -⟩ := inTree_addFiles plain rootedThen texts.2
          obtain ⟨next, alikeToo⟩ := step (later.trans grows)
          cases alikeToo with
          | ended alikeThen =>
              exact inductionHypothesis next alikeThen rootedThen texts.2 grows

/-- Adding the manifest again changes at most its time. -/
theorem addManifest_again
    {cleared : Place → Prop}
    {again : FileTree}
    {exporter other : Exporter}
    (retraces : Retraces cleared (exporter.addManifest.inTree tree).2 tree again)
    (alike : exporter.IsLike other)
    {directory : Place}
    (isDirectory : exporter.directory = .fromRoot directory)
    (rooted : exporter.directory.IsRooted)
    (down : ∀ name ∈ directory, name ≠ "..")
    (isTime : Text.IsWholeText exporter.time)
    (isOther : Text.IsWholeText other.time) :
    AgreeUpToTime directory exporter.time other.time (exporter.addManifest.inTree tree).2
      (other.addManifest.inTree again).2 := by
  have isPath := pathOf_manifest isDirectory
  have samePath : other.pathOf other.manifest.file = exporter.pathOf exporter.manifest.file :=
    (pathOf_manifest (alike.directory.trans isDirectory)).trans isPath.symm
  have isManifest : exporter.manifest =
      ⟨exporter.time, (FilePath.fromRoot directory).text, exporter.records⟩ := by
    rw [manifest, isDirectory]
  have isManifestAgain : other.manifest =
      ⟨other.time, (FilePath.fromRoot directory).text, exporter.records⟩ := by
    rw [alike.manifest, isManifest]
  have isRooted : (exporter.pathOf exporter.manifest.file).IsRooted :=
    rooted.below_ofText Manifest.isText_fileName
  obtain ⟨result, added, -⟩ := inTree_addManifest retraces.plain exporter isRooted
  obtain ⟨resultAgain, addedAgain, -⟩ :=
    inTree_addManifest retraces.plainAgain other (samePath ▸ isRooted)
  rw [samePath, alike.isWhole_manifest isTime isOther] at addedAgain
  rw [added] at retraces ⊢
  rw [addedAgain]
  dsimp only at retraces ⊢
  obtain ⟨next, same⟩ := retraces.aim _ _ (.refl _)
  rw [same]
  cases found : (tree.aim (exporter.pathOf exporter.manifest.file)
    (Text.isWhole exporter.manifest.file.content)).2 with
  | found place =>
      have isPlace : place = directory ++ [Manifest.fileName] := by
        refine (place_of_aim retraces.plain ?_ found).trans (congrArg FilePath.names isPath)
        rw [isPath]
        exact List.forall_mem_append.mpr ⟨down, by decide⟩
      subst isPlace
      rw [found] at retraces next
      exact next.agreeUpToTime isManifest isManifestAgain
  | refused | broken =>
      rw [found] at retraces next
      exact fun place => .inl (next.get?_eq place)

/-- Writing the same files and their manifest again changes at most its time. -/
theorem writeAll_again
    {cleared : Place → Prop}
    {again : FileTree}
    {exporter other : Exporter}
    {files : List RenderedFile}
    (retraces : Retraces cleared ((exporter.writeAll files).inTree tree).2 tree again)
    (alike : exporter.IsLike other)
    {directory : Place}
    (isDirectory : exporter.directory = .fromRoot directory)
    (rooted : exporter.directory.IsRooted)
    (down : ∀ name ∈ directory, name ≠ "..")
    (texts : ∀ file ∈ files, Text.IsText file.path)
    (isTime : Text.IsWholeText exporter.time)
    (isOther : Text.IsWholeText other.time) :
    AgreeUpToTime directory exporter.time other.time ((exporter.writeAll files).inTree tree).2
      ((other.writeAll files).inTree again).2 := by
  obtain ⟨-, -, goesOn⟩ := inTree_addFiles retraces.plain rooted texts
  obtain ⟨-, -, goesOnAgain⟩ :=
    inTree_addFiles retraces.plainAgain (alike.directory ▸ rooted) texts
  obtain ⟨next, ends⟩ := addFiles_again retraces alike rooted texts
    (inTree_writeAll_spec retraces.plain rooted texts).2
  rw [inTree_writeAll] at next ⊢
  rw [inTree_writeAll]
  rcases added : (files.foldlM addFile exporter).inTree tree with ⟨result, left⟩
  rcases addedAgain : (files.foldlM addFile other).inTree again with ⟨resultAgain, leftAgain⟩
  rw [added] at next ends goesOn
  rw [addedAgain] at next ends goesOnAgain
  cases ends with
  | stopped fault faultAgain =>
      exact fun place => .inl (next.get?_eq place)
  | ended alikeThen =>
      rename_i written writtenAgain
      have same := goesOn written rfl
      have sameAgain := goesOnAgain writtenAgain rfl
      dsimp only at next ⊢
      by_cases noting : written.options.writesManifest = true
      · rw [if_pos noting] at next ⊢
        rw [if_pos (alikeThen.options ▸ noting), ← same.time, ← sameAgain.time]
        exact addManifest_again next alikeThen (same.directory.trans isDirectory)
          (same.directory ▸ rooted) down (same.time ▸ isTime) (sameAgain.time ▸ isOther)
      · rw [if_neg noting] at next ⊢
        rw [if_neg (alikeThen.options ▸ noting)]
        exact fun place => .inl (next.get?_eq place)

/-- Preparing the directory again brings the second export to where the first one has been. -/
theorem retraces_of_prepared
    {options : ExportOptions}
    {directory : Place}
    {left final again : FileTree}
    (prepared : IsPrepared options directory tree left)
    (preparedAgain : IsPrepared options directory final again) :
    Retraces (Clears options directory) final left again where
  plain := prepared.plain
  plainAgain := preparedAgain.plain
  inside place clears :=
    (preparedAgain.inside place clears).trans (prepared.inside place clears).symm
  kind place kept := by
    rw [directory?, directory?, preparedAgain.outside place kept]
  outside place kept := .inr (preparedAgain.outside place kept)

/-- Once its directory is prepared again, a second export goes as the first one. -/
theorem run_again_of_prepared
    {exporter other : Exporter}
    (alike : exporter.IsLike other)
    {directory : Place}
    (isDirectory : exporter.directory = .fromRoot directory)
    (rooted : exporter.directory.IsRooted)
    (fits : exporter.directory.fault? = none)
    (down : ∀ name ∈ directory, name ≠ "..")
    {files : List RenderedFile}
    (texts : ∀ file ∈ files, Text.IsText file.path)
    (isTime : Text.IsWholeText exporter.time)
    (isOther : Text.IsWholeText other.time)
    {left final again : FileTree}
    (isPrepared : exporter.prepare.inTree tree = (.ok [], left))
    (prepared : IsPrepared exporter.options directory tree left)
    (ended : ((exporter.run files).inTree tree).2 = final)
    (isPreparedAgain : other.prepare.inTree final = (.ok [], again))
    (preparedAgain : IsPrepared exporter.options directory final again) :
    AgreeUpToTime directory exporter.time other.time final ((other.run files).inTree final).2 := by
  have retraces := retraces_of_prepared prepared preparedAgain
  obtain ⟨-, grows⟩ :=
    grows_run_of_prepared prepared.plain isDirectory isPrepared rooted fits texts
  rw [ended] at grows
  obtain ⟨next, same⟩ := retraces.makeAlong left.get?_root directory grows
  have ran := inTree_run_of_prepared prepared.plain isDirectory isPrepared rooted fits files
  have ranAgain := inTree_run_of_prepared preparedAgain.plain
    (alike.directory.trans isDirectory) isPreparedAgain (alike.directory ▸ rooted)
    (alike.directory ▸ fits) files
  rcases along : left.makeAlong [] directory with ⟨made, last⟩
  rcases alongAgain : again.makeAlong [] directory with ⟨madeAgain, lastAgain⟩
  rw [along] at ran next same
  rw [alongAgain] at ranAgain next same
  cases same
  cases last with
  | none =>
      obtain ⟨refusal, text, isFatal⟩ := ran
      obtain ⟨refusalAgain, textAgain, isFatalAgain⟩ := ranAgain
      rw [isFatalAgain]
      obtain rfl : made = final := by
        rw [← ended, isFatal]
      exact fun place => .inl (next.get?_eq place)
  | some place =>
      dsimp only at ran ranAgain next
      rw [ranAgain]
      rw [ran] at ended
      subst ended
      exact writeAll_again next alike isDirectory rooted down texts isTime isOther

/-- A second export of the same files changes at most the time of the manifest. -/
theorem run_again
    (plain : tree.IsPlain)
    {directory : Place}
    (descends : ∀ name ∈ directory, Path.Descends name ∧ Text.IsText name)
    (options : ExportOptions)
    {files : List RenderedFile}
    (texts : ∀ file ∈ files, Text.IsText file.path)
    {time later : String}
    (isTime : Text.IsWholeText time)
    (isLater : Text.IsWholeText later) :
    let first := (((start (.fromRoot directory) options time).run files).inTree tree).2
    AgreeUpToTime directory time later first
      (((start (.fromRoot directory) options later).run files).inTree first).2 := by
  have down : ∀ name ∈ directory, name ≠ ".." := fun name member =>
    (descends name member).1.notUp
  have rooted : (FilePath.fromRoot directory).IsRooted :=
    FilePath.isRooted_of_descends descends
  have alike : (start (.fromRoot directory) options time).IsLike
      (start (.fromRoot directory) options later) :=
    ⟨rfl, rfl, rfl⟩
  dsimp only
  cases faulty : (FilePath.fromRoot directory).fault? with
  | some fault =>
      have unchanged (tree : FileTree) (time : String) :=
        @inTree_run_of_fault tree (start (.fromRoot directory) options time) fault faulty files
      rw [unchanged, unchanged]
      exact fun place => .inl rfl
  | none =>
      rcases inTree_prepare_spec plain (start (.fromRoot directory) options time) rfl rooted faulty
        down with ⟨refusal, text, isRefused, -⟩ | ⟨left, isPrepared, prepared⟩
      · -- What has been refused once is refused again, because nothing has changed.
        have isRefusedAgain : (start (.fromRoot directory) options later).prepare.inTree tree =
            (.error (.refused refusal text), tree) := by
          rw [inTree_prepare] at isRefused ⊢
          exact isRefused
        rw [inTree_run_of_refused isRefused, inTree_run_of_refused isRefusedAgain]
        exact fun place => .inl rfl
      · obtain ⟨finalPlain, -⟩ :=
          grows_run_of_prepared prepared.plain rfl isPrepared rooted faulty texts
        rcases inTree_prepare_spec finalPlain (start (.fromRoot directory) options later) rfl rooted
          faulty down with
          ⟨refusal, text, isRefused, -⟩ | ⟨leftAgain, isPreparedAgain, preparedAgain⟩
        · rw [inTree_run_of_refused isRefused]
          exact fun place => .inl rfl
        · exact run_again_of_prepared alike rfl rooted faulty down texts isTime isLater isPrepared
            prepared rfl isPreparedAgain preparedAgain

end Export.Exporter

namespace Export

open FileTree Change

variable {tree : FileTree}

/-- In a tree without links a second export with the same settings and files, by an exporter of its
own, changes at most the time of the manifest: whatever could or could not be written is written or
refused again. -/
theorem exportTo_again
    (plain : tree.IsPlain)
    (seen : AreNames tree.workingDirectory)
    {output : String}
    (isText : Text.IsText output)
    (options : ExportOptions)
    {files : List RenderedFile}
    (texts : ∀ file ∈ files, Text.IsText file.path)
    {time later : String}
    (isTime : Text.IsWholeText time)
    (isLater : Text.IsWholeText later) :
    let first := ((exportTo (.ofText output) options time files).inTree tree).2
    ∃ directory, AgreeUpToTime directory time later first
      ((exportTo (.ofText output) options later files).inTree first).2 := by
  have areNames := areNames_ofText isText
  dsimp only
  rw [inTree_exportTo, resolve_of_plain plain seen areNames]
  cases isResolved : resolved tree.workingDirectory (.ofText output) with
  | error fault =>
      refine ⟨[], ?_⟩
      rw [inTree_exportTo, resolve_of_plain plain seen areNames, isResolved]
      exact fun place => .inl rfl
  | ok result =>
      obtain ⟨directory, rfl, descends⟩ := descends_of_resolved seen areNames isResolved
      refine ⟨directory, ?_⟩
      dsimp only
      have sameSeat := Exporter.keepsWorkingDirectory_run
        (.start (.fromRoot directory) options time) files tree
      have stillPlain : (((Exporter.start (.fromRoot directory) options time).run files).inTree
          tree).2.IsPlain :=
        Exporter.isPlain_run plain rfl (FilePath.isRooted_of_descends descends)
          (fun name member => (descends name member).1.notUp) texts
      rw [inTree_exportTo, resolve_of_plain stillPlain (sameSeat ▸ seen) areNames, sameSeat,
        isResolved]
      exact Exporter.run_again plain descends options texts isTime isLater

/-- Files that leave the directory, stand in each other's way or in that of a preserved entry, and
are written twice. -/
theorem exportTo_again_over_conflicts :
    let tree : FileTree := ⟨["work"], [(["work"], .directory), (["work", "out"], .directory),
      (["work", "out", ".git"], .directory), (["work", "out", ".git", "x"], .file [104]),
      (["work", "out", "a.ts"], .directory)]⟩
    let files : List RenderedFile := [⟨"../b.ts", "b"⟩, ⟨".git/x/y.ts", "y"⟩, ⟨"a.ts", "a"⟩,
      ⟨"a.ts/c.ts", "c"⟩, ⟨"a.ts", "last"⟩]
    let options : ExportOptions := ⟨true, true, true⟩
    let first := ((exportTo (.ofText "out") options "2026-01-01T00:00:00" files).inTree tree).2
    ∃ directory, AgreeUpToTime directory "2026-01-01T00:00:00" "2026-01-02T00:00:00" first
      ((exportTo (.ofText "out") options "2026-01-02T00:00:00" files).inTree first).2 := by
  have ascii {text : String} (isAscii : Text.isAscii text = true) : Text.IsWholeText text :=
    Text.isWholeText_of_ascii isAscii
  refine exportTo_again (isPlain_of_hasPlainEntries (by decide)) ?_ (ascii (by decide)).isText
    ⟨true, true, true⟩ ?_ (ascii (by decide)) (ascii (by decide))
  · exact List.forall_mem_singleton.mpr ⟨⟨by decide, by decide⟩, (ascii (by decide)).isText⟩
  · intro file member
    have isAscii : Text.isAscii file.path = true := by
      revert file
      decide
    exact (ascii isAscii).isText

end Export

end ZodSchemas
