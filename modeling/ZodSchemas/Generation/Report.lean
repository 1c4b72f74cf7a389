import ZodSchemas.Export.Manifest
import ZodSchemas.Generation.Summary
import ZodSchemas.Number.Shortest

namespace ZodSchemas.Generation

/-!
# Reports

A report tells what a run has done: its steps, its totals, and what it has to
say about the document, about units and about files.  The summary is the form
that is shown to the user.
-/

open Number

/-- The name and the outcome of a step, with the seconds it has taken. -/
structure StepMetric where
  name : String
  succeeded : Bool
  seconds : Double
  detail : String
deriving Repr, DecidableEq

/-- What a run has done. -/
structure Report where
  succeeded : Bool
  outputDirectory : String
  isDryRun : Bool
  unitTotal : Int
  fileTotal : Int
  byteTotal : Int
  lineTotal : Int
  seconds : Double
  steps : List StepMetric
  validationErrors : List String
  validationWarnings : List String
  generationErrors : List String
  exportErrors : List String
  failedUnits : List String
  renderedFiles : List RenderedFile
  manifest : Option Export.Manifest
deriving Repr, DecidableEq

namespace Report

/-- The report of a run that has done nothing. -/
def empty (isDryRun : Bool) : Report where
  succeeded := false
  outputDirectory := ""
  isDryRun := isDryRun
  unitTotal := 0
  fileTotal := 0
  byteTotal := 0
  lineTotal := 0
  seconds := .zero false
  steps := []
  validationErrors := []
  validationWarnings := []
  generationErrors := []
  exportErrors := []
  failedUnits := []
  renderedFiles := []
  manifest := none

def addStep (report : Report) (name : String) (succeeded : Bool) (detail : String) : Report :=
  { report with steps := report.steps ++ [⟨name, succeeded, .zero false, detail⟩] }

def hasErrors (report : Report) : Bool :=
  !(report.validationErrors.isEmpty && report.generationErrors.isEmpty
    && report.exportErrors.isEmpty)

/-- A number of seconds with three decimal places. -/
def secondsText (seconds : Double) : String :=
  seconds.fixed 3

def shown (report : Report) : Summary where
  succeeded := report.succeeded
  outputDirectory := report.outputDirectory
  isDryRun := report.isDryRun
  units := toString report.unitTotal
  files := toString report.fileTotal
  lines := Text.grouped report.lineTotal
  bytes := Text.grouped report.byteTotal
  seconds := secondsText report.seconds
  steps := report.steps.map fun step =>
    ⟨step.name, step.succeeded, secondsText step.seconds, step.detail⟩
  validationErrors := report.validationErrors
  validationWarnings := report.validationWarnings
  generationErrors := report.generationErrors
  exportErrors := report.exportErrors
  failedUnits := report.failedUnits

/-- The form of a report that is shown to the user. -/
def summary (report : Report) : String :=
  report.shown.text

end Report

end ZodSchemas.Generation
