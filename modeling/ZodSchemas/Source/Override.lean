import ZodSchemas.Source.Fault
import ZodSchemas.Text.CamelCase

namespace ZodSchemas.Source

/-!
# Overrides

Overrides replace entries of the settings section whichever spelling either side
uses, because plain spellings are brought to document spellings first.
Overrides of the metadata go into its section.
-/

open Data

def documentKey : Scalar → Except Fault Scalar
  | .text key => .ok (.text (if key.toList.contains '_' then Text.camelCase key else key))
  | _ => .error .keyNotText

/-- The entries of an object or of nothing, with their keys in document spelling. -/
def documentEntries (value : Value) : Except Fault Mapping :=
  if value.isVacant then .ok []
  else
    match value with
    | .mapping entries => do
        let renamed ← entries.mapM fun entry => (documentKey entry.1).map (·, entry.2)
        .ok (Mapping.ofEntries renamed)
    | _ => .error .notRecord

/-- Overrides on top of a settings section. -/
def mergeSettings (base overrides : Value) : Except Fault Mapping := do
  let first ← documentEntries base
  let second ← documentEntries overrides
  .ok (first.overlay second)

/-- A document with overrides in its settings section. -/
def overrideSettings (overrides raw : Mapping) : Except Fault Mapping := do
  let merged ← mergeSettings ((raw.get? "config").getD .null) (.mapping overrides)
  .ok (raw.put "config" (.mapping merged))

/-- The key of the section that overrides of the metadata go into. -/
def overriddenSection (raw : Mapping) : String :=
  if raw.contains "dmmf" then "dmmf" else "metadata"

/-- A document with overrides in its metadata section, if it has one. -/
def overrideSection? (overrides raw : Mapping) : Option Mapping :=
  match raw.get? (overriddenSection raw) with
  | some (.mapping entries) =>
      some (raw.put (overriddenSection raw) (.mapping (Mapping.overlay entries overrides)))
  | _ => none

/-- A document with overrides in its metadata section, or at the top without one. -/
def overrideMetadata (overrides raw : Mapping) : Mapping :=
  (overrideSection? overrides raw).getD (raw.overlay overrides)

end ZodSchemas.Source
