import ZodSchemas.Export.Manifest
import ZodSchemas.FileTree.Change

namespace ZodSchemas.Export

/-!
# Exports

An exporter writes files below its directory, one after the other.  A file that
cannot be written is reported and the others are written all the same; only a
directory that cannot be prepared keeps all of them from being written.  Reports
and records of one exporter add up over its exports.
-/

/-- How an exporter treats its directory and its files. -/
structure ExportOptions where
  cleansFirst : Bool
  replacesFiles : Bool
  writesManifest : Bool
deriving Repr, DecidableEq

/-- An exporter with what it has reported and written so far; `time` is the time of its
manifests. -/
structure Exporter where
  directory : FilePath
  options : ExportOptions
  time : String
  errors : List String
  warnings : List String
  records : List Record
deriving Repr, DecidableEq

namespace Exporter

/-- An exporter that has written nothing. -/
def start (directory : FilePath) (options : ExportOptions) (time : String) : Exporter :=
  ⟨directory, options, time, [], [], []⟩

/-- The manifest of what has been written. -/
def manifest (exporter : Exporter) : Manifest :=
  ⟨exporter.time, exporter.directory.text, exporter.records⟩

/-- Whether nothing has failed. -/
def succeeded (exporter : Exporter) : Bool :=
  exporter.errors.isEmpty

def addError (exporter : Exporter) (error : String) : Exporter :=
  { exporter with errors := exporter.errors ++ [error] }

def addWarnings (exporter : Exporter) (warnings : List String) : Exporter :=
  { exporter with warnings := exporter.warnings ++ warnings }

/-- Note a written file. -/
def addRecord (exporter : Exporter) (record : Record) : Exporter :=
  { exporter with records := exporter.records ++ [record] }

/-- The path of a file below the directory of an exporter. -/
def pathOf (exporter : Exporter) (file : RenderedFile) : FilePath :=
  exporter.directory.below (.ofText file.path)

/-- Write a file with the directories above it, and make its record. -/
def writeFile (exporter : Exporter) (file : RenderedFile) : Change Record := do
  let path := exporter.pathOf file
  Change.ensureDirectory path.parent
  if !Text.isWhole file.content then
    throw .notUnicode
  let bytes := Text.encodeUtf8 file.content
  if exporter.options.replacesFiles then Change.replaceFile path bytes
  else Change.writeInPlace path bytes
  pure (.ofFile file path.text)

/-- Go on with a fault that the system is responsible for; others end the export. -/
def recover (fault : FileFault) (exporter : Exporter) : Change Exporter :=
  if fault.isRefused then pure exporter else throw fault

/-- Write a file, and note it or the reason why it cannot be written. -/
def addFile (exporter : Exporter) (file : RenderedFile) : Change Exporter := do
  match ← Change.attempt (exporter.writeFile file) with
  | .ok record => pure (exporter.addRecord record)
  | .error fault =>
      recover fault (exporter.addError ("Failed to write " ++ file.path ++ ": " ++ fault.report))

/-- Write the manifest; a warning remains where that is impossible. -/
def addManifest (exporter : Exporter) : Change Exporter := do
  match ← Change.attempt (exporter.writeFile exporter.manifest.file) with
  | .ok _ => pure exporter
  | .error fault =>
      recover fault (exporter.addWarnings ["Could not write manifest: " ++ fault.message])

/-- Make the directory ready, and answer the reports about what could not be removed. -/
def prepare (exporter : Exporter) : Change (List String) := do
  let reports ←
    if exporter.options.cleansFirst then Change.cleanDirectory exporter.directory else pure []
  pure reports

/-- Write all files, and the manifest if one is wanted. -/
def writeAll (exporter : Exporter) (files : List RenderedFile) : Change Exporter := do
  let written ← files.foldlM addFile exporter
  if written.options.writesManifest then written.addManifest else pure written

/-- Export files below the directory. -/
def run (exporter : Exporter) (files : List RenderedFile) : Change Exporter := do
  let fatal (exporter : Exporter) (fault : FileFault) : Change Exporter :=
    recover fault (exporter.addError ("Fatal export error: " ++ fault.report))
  match ← Change.attempt exporter.prepare with
  | .error fault => fatal exporter fault
  | .ok reports =>
      let exporter := exporter.addWarnings reports
      match ← Change.attempt (Change.ensureDirectory exporter.directory) with
      | .error fault => fatal exporter fault
      | .ok _ => exporter.writeAll files

end Exporter

/-- An exporter below the directory that a path stands for. -/
def exporterAt (path : FilePath) (options : ExportOptions) (time : String) : Change Exporter := do
  let directory ← Change.ask fun tree => tree.resolve path
  pure (.start directory options time)

end ZodSchemas.Export
