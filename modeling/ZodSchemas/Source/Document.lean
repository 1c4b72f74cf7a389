import ZodSchemas.Source.Layout

namespace ZodSchemas.Source

/-!
# Source documents

A source document has a metadata section under `metadata` or `dmmf` and may have
a settings section under `config`.  One that shows models itself is all metadata.
-/

open Data

/-- What a source document is read as. -/
structure Parsed where
  document : Metadata.Document
  settings : Settings
deriving Repr, DecidableEq

def metadataSection? (raw : Mapping) : Option Mapping :=
  match nested? raw "metadata", nested? raw "dmmf" with
  | some metadata, _ => some metadata
  | none, some dmmf => some dmmf
  | none, none =>
      if raw.contains "models" || raw.contains "datamodel" then some raw else none

/-- The settings section of a document; nothing counts as an empty one. -/
def settingsSection (raw : Mapping) : Value :=
  match raw.get? "config" with
  | none | some .null => .mapping []
  | some value => value

/-- Read the metadata section. -/
def parseMetadata (data : Mapping) : Except Fault Metadata.Document := do
  let flat ← flatten data
  accept .invalidMetadata (Decode.document (.mapping flat))

def parse (raw : Mapping) : Except Fault Parsed :=
  match metadataSection? raw with
  | none => .error .noMetadata
  | some data => do
      let document ← parseMetadata data
      let settings ← accept .invalidSettings (Decode.settings (settingsSection raw))
      .ok ⟨document, settings⟩

def parseValue (value : Value) : Except Fault Parsed := do
  let raw ← entries value
  parse raw

end ZodSchemas.Source
