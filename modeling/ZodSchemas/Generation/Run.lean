import ZodSchemas.Assembly.Plan
import ZodSchemas.Check.Reference
import ZodSchemas.Export.Exporter
import ZodSchemas.Generation.Report
import ZodSchemas.Source.Input
import ZodSchemas.Source.Override

namespace ZodSchemas.Generation

/-!
# Runs

A run checks a document, assembles its units, renders them and exports the
modules.  It stops before assembly if the checks say so, before rendering if an
operation names an unknown model, and before the export in a dry run; until the
export it leaves the file tree as it is.
-/

open Data

/-- How strict a run is, and whether it writes anything. -/
structure RunOptions where
  isStrict : Bool
  failsOnWarnings : Bool
  isDryRun : Bool
deriving Repr, DecidableEq

/-- A fault that ends a run without a report. -/
inductive RunFault where
  | input (fault : Source.InputFault)
  | file (fault : FileFault)
  | render (error : RenderError)
  | noValue
deriving Repr, DecidableEq

/-- The sentence about a fault. -/
def RunFault.message : RunFault → String
  | .input fault => fault.message
  | .file fault => fault.message
  | .render error => error.message
  | .noValue => "A value is expected."

/-- A step of a run. -/
abbrev Run (α : Type) := ExceptT RunFault (StateM FileTree) α

namespace Run

/-- A change of the file tree as a step of a run. -/
def change (change : Change α) : Run α :=
  ExceptT.adapt .file change

/-- A result as a step of a run. -/
def ofExcept (fault : ε → RunFault) : Except ε α → Run α
  | .ok value => pure value
  | .error error => throw (fault error)

end Run

/-- The overrides of a run. -/
structure Overrides where
  settings : Mapping
  metadata : Mapping
deriving Repr, BEq

namespace Report

/-- Finish a report: a run has succeeded when it has no errors, and no warnings where those count. -/
def finish (options : RunOptions) (report : Report) : Report :=
  { report with
    succeeded :=
      !report.hasErrors && !(options.failsOnWarnings && !report.validationWarnings.isEmpty) }

/-- What the step of the checks says. -/
def checkDetail (findings : Check.Findings) : String :=
  if findings.hasErrors then toString findings.errors.length ++ " error(s)"
  else if findings.hasWarnings then toString findings.warnings.length ++ " warning(s)"
  else "all checks passed"

/-- Note what the checks have found. -/
def noteFindings (findings : Check.Findings) (report : Report) : Report :=
  { report with
    validationErrors := report.validationErrors ++ findings.errors.map Check.Finding.text
    validationWarnings := report.validationWarnings ++ findings.warnings.map Check.Finding.text }
  |>.addStep "Validate Metadata" (!findings.hasErrors) (checkDetail findings)

/-- Note the assembly of units, out of a plan of some length. -/
def noteAssembly (units planned : Nat) (workers : Int) (succeeded : Bool) (report : Report) :
    Report :=
  { report with unitTotal := units }.addStep "Assemble Units" succeeded
    (toString units ++ " of " ++ toString (planned + 1) ++ " units, workers=" ++ toString workers)

/-- Note that an operation names an unknown model. -/
def noteUnknownModel (model : String) (report : Report) : Report :=
  { report with
    generationErrors :=
      report.generationErrors ++ ["Fatal: " ++ Assembly.unknownModelMessage model] }

/-- Note the units that cannot be assembled. -/
def noteFailures (failures : List String) (report : Report) : Report :=
  { report with
    failedUnits := report.failedUnits ++ failures
    generationErrors := report.generationErrors
      ++ (if failures.isEmpty then []
          else [toString failures.length ++ " unit(s) failed to assemble."]) }

def noteFiles (files : List RenderedFile) (report : Report) : Report :=
  let lines : Nat := files.foldl (fun total file => total + file.lineCount) 0
  let bytes : Nat := files.foldl (fun total file => total + file.size) 0
  { report with renderedFiles := files, lineTotal := lines, byteTotal := bytes }.addStep
    "Render Modules" true (toString files.length ++ " modules, ~" ++ Text.grouped lines ++ " lines")

/-- Note what has been exported. -/
def noteExport (exporter : Export.Exporter) (report : Report) : Report :=
  let manifest := exporter.manifest
  { report with
    fileTotal := manifest.fileTotal
    byteTotal := manifest.byteTotal
    lineTotal := manifest.lineTotal
    exportErrors := report.exportErrors ++ exporter.errors
    manifest := some manifest }
  |>.addStep "Export to Filesystem" exporter.succeeded
    (toString manifest.fileTotal ++ " files, " ++ Text.grouped manifest.byteTotal ++ " bytes")

/-- Note that a document cannot be loaded. -/
def noteLoadFailure (reason : String) (report : Report) : Report :=
  { report with generationErrors := report.generationErrors ++ [reason] }.addStep
    "Load Metadata" false reason

/-- Note that a document has been loaded. -/
def noteLoad (document : Metadata.Document) (path : FilePath) (report : Report) : Report :=
  report.addStep "Load Metadata" true
    (toString document.models.length ++ " models from " ++ path.name)

end Report

/-- Whether the findings let a run that heeds them go on. -/
def passes (options : RunOptions) (findings : Check.Findings) : Bool :=
  !findings.hasErrors && !(options.failsOnWarnings && findings.hasWarnings)

def exportOptions (settings : Settings) : Export.ExportOptions :=
  ⟨settings.cleansOutput, true, settings.writesManifest⟩

/-- Export modules, unless the run is a dry one. -/
def exportFiles (options : RunOptions) (time : String) (parsed : Source.Parsed)
    (directory : FilePath) (files : List RenderedFile) (report : Report) : Run Report := do
  if options.isDryRun then
    pure report
  else
    let exporter ← Run.change (Export.exporterAt directory (exportOptions parsed.settings) time)
    let exporter ← Run.change (exporter.run files)
    pure (report.noteExport exporter)

/-- Render assembled units with their index; modules with halves of surrogate pairs have no size. -/
def renderUnits (context : Context) (units : List SchemaUnit) :
    Run (List RenderedFile) := do
  let workingDirectory := (← get).workingPath
  let files ← Run.ofExcept .render (units.mapM (SchemaUnit.render workingDirectory context))
  if files.all fun file => Text.isWhole file.content then pure files
  else throw (.file .notUnicode)

/-- Assemble, render and export the units of a checked document. -/
def produce (options : RunOptions) (time : String) (parsed : Source.Parsed) (report : Report) :
    Run Report := do
  let context := Context.build parsed.settings parsed.document
  let path := FilePath.ofText context.schemasPath
  let directory ← Run.change (Change.ask fun tree => tree.resolve path)
  let report := { report with outputDirectory := directory.text }
  let plan := Assembly.plan context parsed.document
  let workers := parsed.settings.workers
  match Assembly.assemble plan with
  | .error model =>
      pure ((report.noteUnknownModel model).noteAssembly 0 plan.length workers false)
  | .ok assembled =>
      let units := Assembly.withIndex assembled.units
      let report := (report.noteFailures assembled.failures).noteAssembly units.length plan.length
        workers assembled.failures.isEmpty
      let files ← renderUnits context units
      exportFiles options time parsed path files (report.noteFiles files)

/-- Run on a document; `time` is the time of the manifest. -/
def generate (options : RunOptions) (time : String) (parsed : Source.Parsed) (report : Report) :
    Run Report := do
  let findings := Check.full parsed.settings parsed.document
  let report := report.noteFindings findings
  if options.isStrict && !passes options findings then
    pure (report.finish options)
  else
    let report ← produce options time parsed report
    pure (report.finish options)

/-- A document with the overrides that there are. -/
def overridden (overrides : Overrides) (raw : Mapping) : Except Source.Fault Mapping := do
  let raw ←
    if overrides.settings.isEmpty then .ok raw
    else Source.overrideSettings overrides.settings raw
  .ok (if overrides.metadata.isEmpty then raw else Source.overrideMetadata overrides.metadata raw)

def generateFrom (options : RunOptions) (time : String) (overrides : Overrides) (path : FilePath) :
    Run Report := do
  let report := Report.empty options.isDryRun
  match Source.readInput (← get) path (overridden overrides) with
  | .ok parsed => generate options time parsed (report.noteLoad parsed.document path)
  | .error fault =>
      if fault.isReported then pure ((report.noteLoadFailure fault.message).finish options)
      else throw (.input fault)

end ZodSchemas.Generation
