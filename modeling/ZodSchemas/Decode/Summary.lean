import ZodSchemas.Data.Value
import ZodSchemas.Generation.Summary

namespace ZodSchemas.Decode

/-!
# Reading summaries

The fields of a summary can hold any values of a document.  Most are shown as
they stand.  Totals of lines and bytes are grouped and times have three decimal
places, which only numbers can have; the name of a step fills a column, which
only a text can.  A list of remarks may be anything with parts, or absent.
-/

open Data
open Generation
open Number

/-- Why fields make no summary: an unknown field or a value of another kind, a text where a total or
a time stands, a number where a name stands, or a time beyond all doubles. -/
inductive SummaryFault where
  | wrongKind
  | textTotal
  | textTime
  | numberName (kind : String)
  | endlessTime
deriving Repr, DecidableEq

/-- The sentence about a fault. -/
def SummaryFault.message : SummaryFault → String
  | .wrongKind => "A value of this kind cannot be shown."
  | .textTotal => "Cannot specify ',' with 's'."
  | .textTime => "Unknown format code 'f' for object of type 'str'"
  | .numberName kind => "Unknown format code 's' for object of type '" ++ kind ++ "'"
  | .endlessTime => "A time is too large."

/-- The fields that a summary may be made from; files and their manifest are not shown. -/
def summaryFields : List String :=
  ["success", "output_directory", "dry_run", "total_units", "total_files", "total_bytes",
    "total_lines", "total_elapsed_seconds", "step_metrics", "validation_errors",
    "validation_warnings", "generation_errors", "export_errors", "failed_units",
    "rendered_files", "manifest"]

/-- The value of a field, or the one of an absent field. -/
def fieldOr (absent : Value) (fields : Mapping) (name : String) : Value :=
  (fields.get? name).getD absent

def partsOf (value : Value) : Except SummaryFault (List Value) :=
  match value.parts? with
  | some parts => .ok parts
  | none => .error .wrongKind

def totalText : Value → Except SummaryFault String
  | .bool value => .ok (if value then "1" else "0")
  | .int value => .ok (Text.grouped value)
  | .scalar (.double value) => .ok (Text.groupedDecimal value.text)
  | .text _ => .error .textTotal
  | _ => .error .wrongKind

/-- An integral number of seconds with three decimal places. -/
def integralTime (seconds : Int) : Except SummaryFault String :=
  let double := Double.ofInt seconds
  if double.isFinite then .ok (double.fixed 3) else .error .endlessTime

/-- A number of seconds with three decimal places. -/
def timeText : Value → Except SummaryFault String
  | .bool value => integralTime (if value then 1 else 0)
  | .int value => integralTime value
  | .scalar (.double value) => .ok (value.fixed 3)
  | .text _ => .error .textTime
  | _ => .error .wrongKind

def nameText (value : Value) : Except SummaryFault String :=
  match value with
  | .text name => .ok name
  | .bool _ | .int _ | .scalar (.double _) => .error (.numberName value.kindName)
  | _ => .error .wrongKind

/-- The parts of a step: its name, its outcome, the seconds it has taken and what it says. -/
def stepParts (value : Value) : Except SummaryFault (List Value) := do
  let parts ← partsOf value
  if parts.length ≤ 4 then .ok parts else .error .wrongKind

/-- Read a step from its parts, of which the last ones may be absent. -/
def stepSummary (parts : List Value) : Except SummaryFault StepSummary := do
  let name ← nameText (parts.getD 0 (.text ""))
  let seconds ← timeText (parts.getD 2 (.int 0))
  .ok ⟨name, !(parts.getD 1 (.bool true)).isVacant, seconds, (parts.getD 3 (.text "")).display⟩

def remarkTexts (value : Value) : Except SummaryFault (List String) :=
  if value.isVacant then .ok [] else (partsOf value).map (·.map Value.display)

/-- Read a summary; of several faults the one that is shown first counts. -/
def summary (fields : Mapping) : Except SummaryFault Summary := do
  let truth (name : String) := !(fieldOr (.bool false) fields name).isVacant
  let total := fieldOr (.int 0) fields
  let remarks (name : String) := remarkTexts (fieldOr (.list []) fields name)
  if !fields.all fun entry => summaryFields.any fun name => entry.1.same (.text name) then
    throw .wrongKind
  let steps ← partsOf (fieldOr (.list []) fields "step_metrics")
  let steps ← steps.mapM stepParts
  let lines ← totalText (total "total_lines")
  let bytes ← totalText (total "total_bytes")
  let seconds ← timeText (total "total_elapsed_seconds")
  let steps ← steps.mapM stepSummary
  let validationErrors ← remarks "validation_errors"
  let validationWarnings ← remarks "validation_warnings"
  let generationErrors ← remarks "generation_errors"
  let exportErrors ← remarks "export_errors"
  let failedUnits ← remarks "failed_units"
  .ok {
    succeeded := truth "success"
    outputDirectory := (fieldOr (.text "") fields "output_directory").display
    isDryRun := truth "dry_run"
    units := (total "total_units").display
    files := (total "total_files").display
    lines, bytes, seconds, steps, validationErrors, validationWarnings, generationErrors,
    exportErrors, failedUnits }

end ZodSchemas.Decode
