import ZodSchemas.Data.Value

namespace ZodSchemas.Check

/-!
# Findings

A check answers a list of findings in the order in which it makes them.  Only
errors make a document invalid.  A report leaves remarks out unless they are
asked for.
-/

open Data

/-- How severe a finding is. -/
inductive Level where
  | error
  | warning
  | info
deriving Repr, DecidableEq

/-- What a check has found; the details say where. -/
structure Finding where
  level : Level
  code : String
  message : String
  details : Mapping
deriving Repr, BEq

def Level.label : Level → String
  | .error => "error"
  | .warning => "warning"
  | .info => "info"

/-- The spelling of a level in capitals. -/
def Level.heading : Level → String
  | .error => "ERROR"
  | .warning => "WARNING"
  | .info => "INFO"

def Level.mark : Level → String
  | .error => "❌"
  | .warning => "⚠️"
  | .info => "ℹ️"

namespace Finding

def make (level : Level) (code message : String) (details : List (String × String)) : Finding :=
  ⟨level, code, message, details.map fun detail => (.text detail.1, Value.text detail.2)⟩

def error : String → String → List (String × String) → Finding := make .error

def warning : String → String → List (String × String) → Finding := make .warning

def info : String → String → List (String × String) → Finding := make .info

/-- The one-line form of a finding. -/
def text (finding : Finding) : String :=
  "[" ++ finding.level.heading ++ "] " ++ finding.code ++ ": " ++ finding.message

def value (finding : Finding) : Value :=
  .object [("level", .text finding.level.label), ("code", .text finding.code),
    ("message", .text finding.message), ("context", .mapping finding.details)]

def reportLines (finding : Finding) : List String :=
  ("  " ++ finding.level.mark ++ " [" ++ finding.code ++ "] " ++ finding.message) ::
    finding.details.map fun detail =>
      "       " ++ (Value.scalar detail.1).display ++ ": " ++ detail.2.display

end Finding

/-- The findings of a check, in order. -/
abbrev Findings := List Finding

namespace Findings

def ofLevel (level : Level) (findings : Findings) : Findings :=
  findings.filter (·.level == level)

def errors (findings : Findings) : Findings :=
  ofLevel .error findings

def warnings (findings : Findings) : Findings :=
  ofLevel .warning findings

/-- Whether there is an error. -/
def hasErrors (findings : Findings) : Bool :=
  findings.any (·.level == .error)

/-- Whether there is a warning. -/
def hasWarnings (findings : Findings) : Bool :=
  findings.any (·.level == .warning)

/-- The line that counts the findings. -/
def summary (findings : Findings) : String :=
  "Validation: " ++ toString (errors findings).length ++ " error(s), "
    ++ toString (warnings findings).length ++ " warning(s), "
    ++ toString findings.length ++ " total item(s)."

/-- The report of the findings, with remarks on demand. -/
def report (findings : Findings) (withInfo : Bool) : String :=
  let shown := findings.filter fun finding => withInfo || finding.level != .info
  "\n".intercalate (summary findings :: "" :: shown.flatMap Finding.reportLines)

end Findings

end ZodSchemas.Check
