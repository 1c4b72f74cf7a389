import ZodSchemas.Decode.Metadata
import ZodSchemas.Decode.Settings

namespace ZodSchemas.Source

/-!
# Faults of source documents

A document may lack a metadata section, its sections may be malformed, or its
values may have a shape that no section can be read from.  Only the first two
are reported to the user; the others end the run.
-/

open Decode

/-- Why a source document is not accepted. -/
inductive Fault where
  | noMetadata
  | invalidMetadata (issues : List Issue)
  | invalidSettings (issues : List Issue)
  | notRecord
  | notList
  | notFixed
  | keyNotText
  | namelessValue
deriving Repr, DecidableEq

namespace Fault

/-- Whether the fault is reported to the user. -/
def isReported : Fault → Bool
  | .noMetadata | .invalidMetadata _ | .invalidSettings _ => true
  | .notRecord | .notList | .notFixed | .keyNotText | .namelessValue => false

def issues : Fault → List Issue
  | .invalidMetadata issues | .invalidSettings issues => issues
  | _ => []

/-- The sentence about a fault; issues are counted. -/
def message : Fault → String
  | .noMetadata =>
      "Cannot find metadata in input. Expected top-level key 'metadata' or 'dmmf'."
  | .invalidMetadata issues => "Metadata validation failed: " ++ headline documentRecord issues
  | .invalidSettings issues => "Config validation failed: " ++ headline settingsRecord issues
  | .notRecord => "An object is expected."
  | .notList => "A list is expected."
  | .notFixed => "A name cannot be a list or an object."
  | .keyNotText => "A key has to be a text."
  | .namelessValue => "An enumeration value has no name."

end Fault

/-- An accepted value, or the fault that its issues make. -/
def accept (fault : List Issue → Fault) : Decoded α → Except Fault α
  | .accepted value => .ok value
  | .rejected issues => .error (fault issues)
  | .interrupted => .error .namelessValue

end ZodSchemas.Source
