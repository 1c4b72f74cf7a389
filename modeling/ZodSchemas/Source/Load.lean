import ZodSchemas.FileTree.Basic
import ZodSchemas.Json.Reader
import ZodSchemas.Text.Layout
import ZodSchemas.Text.Utf8
import ZodSchemas.Yaml.Value

namespace ZodSchemas.Source

/-!
# Loading source documents

The extension of a file says how it is read: as YAML, as JSON, or as JSON and
where that fails as YAML.  Whatever it is, it has to hold an object.  A YAML
object may contain itself; then no more than its outer levels are there.
-/

open Data

/-- Why a file cannot be loaded. -/
inductive LoadFault where
  | absent (path : String)
  | notFile (path : String)
  | unreadable (fault : FileFault)
  | undecodable (fault : Text.Utf8Fault)
  | invalidJson (path : String) (reason : String)
  | invalidYaml (path : String)
  | badValue (reason : String)
  | strayValue (fault : Yaml.Fault)
  | tooDeep
  | noObject (kind : String)
  | noMapping (kind : String)
deriving Repr, DecidableEq

namespace LoadFault

/-- Whether a fault is reported to the user; the others end the run. -/
def isReported : LoadFault → Bool
  | .unreadable _ | .strayValue _ | .tooDeep => false
  | _ => true

/-- The sentence about a fault. -/
def message : LoadFault → String
  | .absent path => "Metadata file not found: " ++ path
  | .notFile path => "Metadata path is not a file: " ++ path
  | .unreadable fault => fault.message
  | .undecodable fault => fault.message
  | .invalidJson path reason => "Invalid JSON in " ++ path ++ ": " ++ reason
  | .invalidYaml path => "Invalid YAML in " ++ path
  | .badValue reason => reason
  | .strayValue fault => fault.message
  | .tooDeep => "Lists and objects lie too deep inside one another."
  | .noObject kind => "Expected a JSON object at top level, got " ++ kind ++ "."
  | .noMapping kind => "Expected a YAML mapping at top level, got " ++ kind ++ "."

end LoadFault

/-- The entries of the object that a file holds, and whether it contains itself. -/
structure Loaded where
  entries : Mapping
  isEndless : Bool
deriving Repr

namespace Loaded

/-- How many levels of an object can be shown. -/
def visibleLevels : Nat := 490

/-- Whether an object has more levels than can be shown. -/
def isTooDeep (loaded : Loaded) : Bool :=
  loaded.isEndless || (Value.mapping loaded.entries).isDeeper visibleLevels

end Loaded

/-- Decode bytes as a text, with line feeds for all line breaks. -/
def decodeText (bytes : List UInt8) : Except LoadFault (List Char) :=
  match Text.decodeUtf8 bytes with
  | .ok chars => .ok (Text.unifyBreaks chars)
  | .error fault => .error (.undecodable fault)

/-- What a fault in a JSON text says about its file. -/
def jsonFault (path : String) (chars : List Char) (fault : Json.Fault) : LoadFault :=
  if fault.cause = .tooDeep then .tooDeep
  else if fault.isSyntactic then .invalidJson path (fault.message chars)
  else .badValue (fault.message chars)

/-- What a fault in a YAML text says about its file. -/
def yamlFault (path : String) (fault : Yaml.Fault) : LoadFault :=
  if fault.isSyntactic then .invalidYaml path
  else if fault.isBadValue then .badValue fault.message
  else .strayValue fault

def objectOr (fault : String → LoadFault) (value : Value) (isEndless : Bool) :
    Except LoadFault Loaded :=
  match value with
  | .mapping entries => .ok ⟨entries, isEndless⟩
  | other => .error (fault other.kindName)

/-- Read bytes as JSON. -/
def readJson (path : String) (bytes : List UInt8) : Except LoadFault Loaded := do
  let chars ← decodeText bytes
  match Json.read chars with
  | .ok value => objectOr .noObject value false
  | .error fault => .error (jsonFault path chars fault)

/-- Read bytes as YAML. -/
def readYaml (path : String) (bytes : List UInt8) : Except LoadFault Loaded := do
  let chars ← decodeText bytes
  match Yaml.read chars with
  | .ok found => objectOr .noMapping found.value found.isEndless
  | .error fault => .error (yamlFault path fault)

def readEither (path : String) (bytes : List UInt8) : Except LoadFault Loaded :=
  match readJson path bytes with
  | .ok loaded => .ok loaded
  | .error fault => if fault.isReported then readYaml path bytes else .error fault

def readAs (fileType path : String) (bytes : List UInt8) : Except LoadFault Loaded :=
  if fileType = ".yaml" ∨ fileType = ".yml" then readYaml path bytes
  else if fileType = ".json" then readJson path bytes
  else readEither path bytes

/-- Answer about a path of a tree. -/
def answered : Except FileFault α → Except LoadFault α
  | .ok value => .ok value
  | .error fault => .error (.unreadable fault)

def load (tree : FileTree) (path : FilePath) : Except LoadFault Loaded := do
  if !(← answered (tree.isPresent path)) then
    .error (.absent path.text)
  else if !(← answered (tree.isFile path)) then
    .error (.notFile path.text)
  else
    let bytes ← answered (tree.readBytes path)
    readAs path.fileType path.text bytes

end ZodSchemas.Source
