import ZodSchemas.Source.Document
import ZodSchemas.Source.Load

namespace ZodSchemas.Source

/-!
# Source documents in files
-/

open Data

/-- Why a file cannot be used as a source document. -/
inductive InputFault where
  | load (fault : LoadFault)
  | source (fault : Fault)
deriving Repr, DecidableEq

namespace InputFault

/-- Whether a fault is reported to the user; the others end the run. -/
def isReported : InputFault → Bool
  | .load fault => fault.isReported
  | .source fault => fault.isReported

/-- The sentence about a fault. -/
def message : InputFault → String
  | .load fault => fault.message
  | .source fault => fault.message

end InputFault

/-- Load the document in a file, and adapt it before it is read. -/
def readInput (tree : FileTree) (path : FilePath) (adapt : Mapping → Except Fault Mapping) :
    Except InputFault Parsed :=
  match load tree path with
  | .error fault => .error (.load fault)
  | .ok loaded =>
      match adapt loaded.entries >>= parse with
      | .error fault => .error (.source fault)
      | .ok parsed => .ok parsed

end ZodSchemas.Source
