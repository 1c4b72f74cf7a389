import ZodSchemas.Proofs.ExportRuns

namespace ZodSchemas

/-!
# Records of an export

Each file of an export becomes a record or an error.  An exporter that has started
without records, and ends without errors, has a record of every file in their
order; this holds in every tree, whatever stands in it.
-/

namespace Export

open Change

/-- The record of a file that is written below a directory. -/
def recordIn (directory : FilePath) (file : RenderedFile) : Record :=
  .ofFile file (directory.below (.ofText file.path)).text

/-- An exporter that has no errors only if it has a record of each file, in their order. -/
structure Exporter.Accounts (directory : FilePath) (files : List RenderedFile)
    (exporter : Exporter) : Prop where
  below : exporter.directory = directory
  records : exporter.errors = [] → exporter.records = files.map (recordIn directory)

namespace Exporter

variable {directory : FilePath} {files : List RenderedFile} {exporter : Exporter}

theorem Accounts.addRecord
    (accounts : exporter.Accounts directory files)
    (file : RenderedFile) :
    (exporter.addRecord (recordIn directory file)).Accounts directory (files ++ [file]) where
  below := accounts.below
  records := by
    intro noErrors
    rw [List.map_append, ← accounts.records noErrors]
    rfl

/-- An exporter with an error has nothing to account for. -/
theorem accounts_addError
    (below : exporter.directory = directory)
    (error : String) :
    (exporter.addError error).Accounts directory files where
  below := below
  records := fun noErrors => absurd noErrors (List.concat_ne_nil _ _)

theorem yields_recover
    {holds : Exporter → Prop}
    (fault : FileFault)
    (atExporter : holds exporter) :
    Yields holds (recover fault exporter) := by
  unfold recover
  split
  · exact .pure atExporter
  · exact .throw holds fault

theorem yields_writeFile
    (exporter : Exporter)
    (file : RenderedFile) :
    Yields (· = recordIn exporter.directory file) (exporter.writeFile file) := by
  rw [writeFile_eq]
  refine (Yields.any _).bind fun _ _ => ?_
  split
  · exact (Yields.any _).bind fun _ _ => .pure rfl
  · exact .throw _ _

theorem yields_addFile
    (accounts : exporter.Accounts directory files)
    (file : RenderedFile) :
    Yields (Accounts directory (files ++ [file])) (exporter.addFile file) := by
  refine (yields_attempt (yields_writeFile exporter file)).bind fun result isRecord => ?_
  cases result with
  | ok record =>
      obtain rfl := isRecord record rfl
      rw [accounts.below]
      exact .pure (accounts.addRecord file)
  | error fault =>
      exact yields_recover fault (accounts_addError accounts.below _)

theorem yields_addFiles
    (accounts : exporter.Accounts directory files)
    (others : List RenderedFile) :
    Yields (Accounts directory (files ++ others)) (others.foldlM addFile exporter) := by
  induction others generalizing files exporter with
  | nil =>
      rw [List.append_nil]
      exact .pure accounts
  | cons file others inductionHypothesis =>
      rw [List.foldlM_cons, List.append_cons]
      exact (yields_addFile accounts file).bind fun _ => inductionHypothesis

theorem Accounts.addWarnings
    (accounts : exporter.Accounts directory files)
    (warnings : List String) :
    (exporter.addWarnings warnings).Accounts directory files :=
  ⟨accounts.below, accounts.records⟩

theorem yields_addManifest
    {holds : Exporter → Prop}
    (unchanged : holds exporter)
    (warned : ∀ warning, holds (exporter.addWarnings [warning])) :
    Yields holds exporter.addManifest := by
  refine (Yields.any (attempt (exporter.writeFile _))).bind fun result _ => ?_
  cases result with
  | ok record =>
      exact .pure unchanged
  | error fault =>
      exact yields_recover fault (warned _)

theorem yields_writeAll
    (accounts : exporter.Accounts directory [])
    (files : List RenderedFile) :
    Yields (Accounts directory files) (exporter.writeAll files) := by
  refine (yields_addFiles accounts files).bind fun written stillAccounts => ?_
  split
  · exact yields_addManifest stillAccounts fun warning => stillAccounts.addWarnings [warning]
  · exact .pure stillAccounts

/-- An export that ends without errors has a record of each file, in their order. -/
theorem yields_run
    (accounts : exporter.Accounts directory [])
    (files : List RenderedFile) :
    Yields (Accounts directory files) (exporter.run files) := by
  refine (Yields.any (attempt exporter.prepare)).bind fun prepared _ => ?_
  cases prepared with
  | error fault =>
      exact yields_recover fault (accounts_addError accounts.below _)
  | ok reports =>
      refine (Yields.any (attempt (ensureDirectory _))).bind fun made _ => ?_
      cases made with
      | error fault =>
          exact yields_recover fault (accounts_addError (accounts.addWarnings reports).below _)
      | ok _ =>
          exact yields_writeAll (accounts.addWarnings reports) files

theorem accounts_start
    (directory : FilePath)
    (options : ExportOptions)
    (time : String) :
    (start directory options time).Accounts directory [] :=
  ⟨rfl, fun _ => rfl⟩

end Exporter

end Export

end ZodSchemas
