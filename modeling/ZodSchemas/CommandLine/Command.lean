import ZodSchemas.CommandLine.Arguments
import ZodSchemas.Generation.Run

namespace ZodSchemas.CommandLine

/-!
# Commands

A command either checks a document and reports what it has found, or runs the
generation and shows the summary of its report.  The exit code says which part
has failed: 1 the checks, 2 the generation, 3 the export, 4 the input; faults in
the words of the command itself have code 2 as well.
-/

open Data
open Generation

/-- What a command shows, with its exit code; a usage fault is shown apart. -/
structure Outcome where
  code : Nat
  output : String
  usageFault : Option UsageFault
deriving Repr, DecidableEq

namespace Outcome

/-- The outcome of a command that shows nothing. -/
def silent (code : Nat) : Outcome :=
  ⟨code, "", none⟩

def ofLines (code : Nat) (lines : List String) : Outcome :=
  ⟨code, joinLines lines, none⟩

end Outcome

/-- The exit code of a command that has succeeded. -/
def successCode : Nat := 0

/-- The exit code where the checks fail. -/
def validationCode : Nat := 1

/-- The exit code where the generation fails, or the words of the command are at fault. -/
def generationCode : Nat := 2

/-- The exit code where the export fails. -/
def exportCode : Nat := 3

/-- The exit code where the input cannot be used. -/
def inputCode : Nat := 4

namespace Arguments

/-- A setting that is overridden only where a flag is given. -/
def flagOverride (key : String) (isGiven : Bool) : List (String × Value) :=
  if isGiven then [(key, .bool true)] else []

/-- A setting that is overridden where a value is given; one that is blank is overridden by the
empty list, which no setting accepts. -/
def givenOverride (key : String) (encode : α → Value) : Given α → List (String × Value)
  | .absent => []
  | .blank => [(key, .list [])]
  | .value value => [(key, encode value)]

def settingsOverrides (arguments : Arguments) : Mapping :=
  let entries :=
    givenOverride "output" Value.text arguments.output
      ++ flagOverride "is_generate_select" arguments.emitsSelect
      ++ flagOverride "is_generate_include" arguments.emitsInclude
      ++ givenOverride "workers" Value.int arguments.workers
      ++ flagOverride "clean_output" arguments.cleansOutput
      ++ flagOverride "write_manifest" arguments.writesManifest
  entries.map fun entry => (.text entry.1, entry.2)

/-- The overrides of metadata that arguments ask for; a blank provider overrides nothing. -/
def metadataOverrides (arguments : Arguments) : Mapping :=
  match arguments.provider with
  | .value provider => [(.text "provider", .text provider.label)]
  | _ => []

def runOptions (arguments : Arguments) : RunOptions :=
  ⟨!arguments.isLenient, arguments.failsOnWarnings, arguments.isDryRun⟩

end Arguments

/-- A document with the overrides of a command that only checks it: its settings are brought to
document spelling in any case, and metadata is overridden only in a section of its own. -/
def checkedDocument (arguments : Arguments) (raw : Mapping) : Except Source.Fault Mapping := do
  let raw ← Source.overrideSettings arguments.settingsOverrides raw
  let metadata := arguments.metadataOverrides
  .ok (if metadata.isEmpty then raw else (Source.overrideSection? metadata raw).getD raw)

/-- A line of fifty equal signs. -/
def checkRule : String :=
  String.ofList (List.replicate 50 '=')

/-- The lines of a list of findings, none without a finding. -/
def findingLines (title icon : String) (findings : Check.Findings) : List String :=
  if findings.isEmpty then []
  else
    ["", "  " ++ title ++ " (" ++ toString findings.length ++ "):"]
      ++ findings.map fun finding => "    " ++ icon ++ " " ++ finding.text

def checkReport (path : FilePath) (document : Metadata.Document) (seconds : Number.Double)
    (findings : Check.Findings) : List String :=
  ["", checkRule, "  Metadata Validation Report", checkRule,
    "  File:     " ++ path.name,
    "  Models:   " ++ toString document.models.length,
    "  Time:     " ++ Report.secondsText seconds ++ "s",
    "  Valid:    " ++ (if findings.hasErrors then "No" else "Yes")]
    ++ findingLines "Errors" "✗" findings.errors
    ++ findingLines "Warnings" "⚠" findings.warnings
    ++ (if findings.hasErrors || findings.hasWarnings then []
        else ["", "  ✅ All validations passed!"])
    ++ [checkRule, ""]

/-- Only check a document. -/
def check (arguments : Arguments) (path : FilePath) : Run Outcome := do
  match Source.readInput (← get) path (checkedDocument arguments) with
  | .ok parsed =>
      let findings := Check.full parsed.settings parsed.document
      let lines := checkReport path parsed.document (.zero false) findings
      pure (.ofLines (if findings.hasErrors then validationCode else successCode) lines)
  | .error fault =>
      if fault.isReported then pure (.silent inputCode) else throw (.input fault)

/-- The exit code that a report calls for. -/
def reportCode (report : Report) : Nat :=
  if report.succeeded then successCode
  else if !report.validationErrors.isEmpty then validationCode
  else if !report.generationErrors.isEmpty then generationCode
  else if !report.exportErrors.isEmpty then exportCode
  else generationCode

def generate (time : String) (arguments : Arguments) (path : FilePath) : Run Outcome := do
  let overrides : Overrides := ⟨arguments.settingsOverrides, arguments.metadataOverrides⟩
  let report ← generateFrom arguments.runOptions time overrides path
  pure (.ofLines (reportCode report) [report.summary])

/-- A value that has to be there. -/
def required : Given α → Run α
  | .value value => pure value
  | .absent | .blank => throw .noValue

/-- Whether the number of workers is too small; it may be absent, but not blank. -/
def lacksWorkers : Given Int → Run Bool
  | .absent => pure false
  | given => return (← required given) < 1

/-- Do what arguments ask for; `time` is the time of the manifest. -/
def perform (time : String) (arguments : Arguments) : Run Outcome := do
  if ← lacksWorkers arguments.workers then
    pure (.silent inputCode)
  else
    let written := FilePath.ofText (← required arguments.metadata)
    let path ← Run.change (Change.ask fun tree => tree.resolve written)
    if !(← Run.change (Change.ask fun tree => tree.isFile path)) then
      pure (.silent inputCode)
    else if arguments.validatesOnly then
      check arguments path
    else
      generate time arguments path

/-- The directory that a generation writes to, where its document can be read. -/
def outputPath? (tree : FileTree) (arguments : Arguments) : Option FilePath :=
  let overrides : Overrides := ⟨arguments.settingsOverrides, arguments.metadataOverrides⟩
  let path := FilePath.ofText (arguments.metadata.value?.getD "")
  match Source.readInput tree path (overridden overrides) with
  | .ok parsed =>
      some (.ofText (Context.build parsed.settings parsed.document).schemasPath)
  | .error _ => none

/-- The lines that explain the options. -/
def helpLines : List String :=
  "usage: zodgen [options]" :: "" :: "options:"
    :: CommandOption.all.map fun option => "  " ++ ", ".intercalate option.spellings

/-- What is shown where the reading of words ends early. -/
def endingOutcome : Ending → Outcome
  | .fault fault => ⟨generationCode, "", some fault⟩
  | .help => .ofLines successCode helpLines
  | .version => .ofLines successCode ["zodgen v" ++ Export.Manifest.version]

/-- Carry out a command given by its texts. -/
def command (time : String) (texts : List String) : Run Outcome :=
  match Arguments.ofTexts texts with
  | .error ending => pure (endingOutcome ending)
  | .ok arguments => perform time arguments

end ZodSchemas.CommandLine
