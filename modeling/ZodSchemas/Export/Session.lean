import ZodSchemas.Export.Exporter

namespace ZodSchemas.Export

/-!
# Exporters that are used again

An exporter keeps what it has noted from one export to the next, also where a
fault has broken an export off that the system is not responsible for.
-/

/-- What an export returns. -/
structure Result where
  succeeded : Bool
  manifest : Manifest
  errors : List String
  warnings : List String
deriving Repr, DecidableEq

def Exporter.result (exporter : Exporter) : Result :=
  ⟨exporter.succeeded, exporter.manifest, exporter.errors, exporter.warnings⟩

/-- How an export ends: the exporter with all that it has noted, and the fault that has broken the
export off, if one has. -/
structure Ending where
  exporter : Exporter
  fault? : Option FileFault
deriving Repr, DecidableEq

/-- What an export returns that has not been broken off. -/
def Ending.result? (ending : Ending) : Option Result :=
  match ending.fault? with
  | none => some ending.exporter.result
  | some _ => none

namespace Exporter

/-- Take a step; a fault leaves what has been noted before it. -/
def endOf (exporter : Exporter) (step : Change Exporter) : StateM FileTree Ending := do
  match ← step.run with
  | .ok later => pure ⟨later, none⟩
  | .error fault => pure ⟨exporter, some fault⟩

/-- Add files one after the other, until a fault breaks that off. -/
def addEach (exporter : Exporter) : List RenderedFile → StateM FileTree Ending
  | [] => pure ⟨exporter, none⟩
  | file :: rest => do
      match ← exporter.endOf (exporter.addFile file) with
      | ⟨added, none⟩ => added.addEach rest
      | ⟨last, some fault⟩ => pure ⟨last, some fault⟩

/-- Add all files, and the manifest if one is wanted. -/
def addAll (exporter : Exporter) (files : List RenderedFile) : StateM FileTree Ending := do
  match ← exporter.addEach files with
  | ⟨written, none⟩ =>
      if written.options.writesManifest then written.endOf written.addManifest
      else pure ⟨written, none⟩
  | ⟨last, some fault⟩ => pure ⟨last, some fault⟩

/-- Export files below the directory, and keep what has been noted in any case. -/
def runKeeping (exporter : Exporter) (files : List RenderedFile) : StateM FileTree Ending := do
  let fatal (noted : Exporter) (fault : FileFault) : StateM FileTree Ending :=
    noted.endOf (recover fault (noted.addError ("Fatal export error: " ++ fault.report)))
  match ← exporter.prepare.run with
  | .error fault => fatal exporter fault
  | .ok reports =>
      let noted := exporter.addWarnings reports
      match ← (Change.ensureDirectory noted.directory).run with
      | .error fault => fatal noted fault
      | .ok _ => noted.addAll files

end Exporter

end ZodSchemas.Export
