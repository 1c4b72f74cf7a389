import ZodSchemas.Text.Layout

namespace ZodSchemas.Generation

/-!
# Summaries

A summary is what the user is shown of a run.  Its totals, times and remarks are
texts already; here they are laid out on lines, with the steps in columns and
every list of remarks under a title that counts them.
-/

/-- What is shown of a step. -/
structure StepSummary where
  name : String
  succeeded : Bool
  seconds : String
  detail : String
deriving Repr, DecidableEq

/-- What is shown of a run. -/
structure Summary where
  succeeded : Bool
  outputDirectory : String
  isDryRun : Bool
  units : String
  files : String
  lines : String
  bytes : String
  seconds : String
  steps : List StepSummary
  validationErrors : List String
  validationWarnings : List String
  generationErrors : List String
  exportErrors : List String
  failedUnits : List String
deriving Repr, DecidableEq

/-- The mark before what has succeeded or failed. -/
def outcomeMark (succeeded : Bool) : String :=
  if succeeded then "✓" else "✗"

def StepSummary.line (step : StepSummary) : String :=
  "    " ++ outcomeMark step.succeeded ++ " " ++ Text.padRight 28 step.name ++ " "
    ++ Text.padLeft 7 step.seconds ++ "s  " ++ step.detail

namespace Summary

/-- A line of sixty equal characters. -/
def rule (char : Char) : String :=
  String.ofList (List.replicate 60 char)

/-- The lines of the totals. -/
def head (summary : Summary) : List String :=
  let status := if summary.succeeded then "✅ SUCCESS" else "❌ FAILED"
  [
    rule '=',
    "  zodgen — Generation Report",
    rule '=',
    "  Status:           " ++ status ++ (if summary.isDryRun then " (dry run)" else ""),
    "  Output:           " ++ summary.outputDirectory,
    "  Units assembled:  " ++ summary.units,
    "  Files written:    " ++ summary.files,
    "  Total lines:      " ++ summary.lines,
    "  Total bytes:      " ++ summary.bytes,
    "  Total time:       " ++ summary.seconds ++ "s",
    rule '─'
  ]

/-- The lines of the steps, none without a step. -/
def stepLines (summary : Summary) : List String :=
  if summary.steps.isEmpty then []
  else "  Pipeline Steps:" :: summary.steps.map StepSummary.line

/-- The lines of a list of remarks, none without a remark. -/
def remarkLines (title icon : String) (remarks : List String) : List String :=
  if remarks.isEmpty then []
  else
    rule '─' :: ("  " ++ title ++ " (" ++ toString remarks.length ++ "):")
      :: remarks.map fun remark => "    " ++ icon ++ " " ++ remark

def remarks (summary : Summary) : List String :=
  remarkLines "Validation Errors" "✗" summary.validationErrors
    ++ remarkLines "Validation Warnings" "⚠" summary.validationWarnings
    ++ remarkLines "Generation Errors" "✗" summary.generationErrors
    ++ remarkLines "Export Errors" "✗" summary.exportErrors
    ++ remarkLines "Failed Units" "⊘" summary.failedUnits

def text (summary : Summary) : String :=
  "\n".intercalate (summary.head ++ summary.stepLines ++ summary.remarks ++ [rule '='])

end Summary

end ZodSchemas.Generation
