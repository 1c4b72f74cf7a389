import ZodSchemas.Source.Fault

namespace ZodSchemas.Source

/-!
# Layouts of the metadata section

The sections of the introspection layout are lifted to the flat one: models and
enumerations out of `datamodel`, composites and further enumerations out of
`schema`, operation mappings out of `mappings`, the provider out of
`datasource`.  What the flat layout states itself takes precedence; enumerations
are put together, and of those with one name the first remains.
-/

open Data
open Metadata

def parts (value : Value) : Except Fault (List Value) :=
  match value.parts? with
  | some parts => .ok parts
  | none => .error .notList

def entries (value : Value) : Except Fault Mapping :=
  match value.entries? with
  | some entries => .ok entries
  | none => .error .notRecord

/-- The value under a key, or the empty list. -/
def listAt (mapping : Mapping) (key : String) : Value :=
  (mapping.get? key).getD (.list [])

def nestedSections : List String :=
  ["datamodel", "schema", "mappings", "datasource"]

/-- What remains of a section without the nested ones. -/
def flatPart (data : Mapping) : Mapping :=
  nestedSections.foldl Mapping.erase data

/-- The object under a key. -/
def nested? (data : Mapping) (key : String) : Option Mapping :=
  (data.get? key).bind Value.entries?

/-- Add enumerations behind those that are there. -/
def appendEnums (enums : Value) (flat : Mapping) : Except Fault Mapping := do
  let own ← parts (listAt flat "enums")
  let further ← parts enums
  .ok (flat.put "enums" (.list (own ++ further)))

def liftProvider (data flat : Mapping) : Mapping :=
  match (nested? data "datasource").bind (·.get? "provider") with
  | some provider => flat.putDefault "provider" provider
  | none => flat

def liftModels (data flat : Mapping) : Except Fault Mapping :=
  match nested? data "datamodel" with
  | some section_ =>
      appendEnums (listAt section_ "enums") (flat.putDefault "models" (listAt section_ "models"))
  | none => .ok flat

/-- The types of the host followed by those of the models; a value of another layout is taken as
it is. -/
def byOrigin (value : Value) : Except Fault Value :=
  match value with
  | .mapping origins => do
      let host ← parts (listAt origins "prisma")
      let own ← parts (listAt origins "model")
      .ok (.list (host ++ own))
  | other => .ok other

/-- Lift composites and further enumerations. -/
def liftTypes (data flat : Mapping) : Except Fault Mapping :=
  match nested? data "schema" with
  | some section_ => do
      let composites ← byOrigin ((section_.get? "inputObjectTypes").getD (.mapping []))
      let enums ← byOrigin ((section_.get? "enumTypes").getD (.mapping []))
      appendEnums enums (flat.putDefault "inputObjectTypes" composites)
  | none => .ok flat

def liftMappings (data flat : Mapping) : Mapping :=
  match nested? data "mappings" with
  | some section_ => flat.putDefault "modelOperations" (listAt section_ "modelOperations")
  | none => flat

/-- The members of a list of objects whose name is not among the seen ones and not repeated. -/
def firstByName (seen : List Value) : List Value → Except Fault (List Value)
  | [] => .ok []
  | item :: rest => do
      let fields ← entries item
      let name := (fields.get? "name").getD .null
      if !name.isFixed then .error .notFixed
      else if seen.any name.same then firstByName seen rest
      else do
        let others ← firstByName (name :: seen) rest
        .ok (item :: others)

/-- Keep the first enumeration of each name. -/
def mergeEnums (flat : Mapping) : Except Fault Mapping :=
  match flat.get? "enums" with
  | some enums => do
      let items ← parts enums
      let merged ← firstByName [] items
      .ok (flat.put "enums" (.list merged))
  | none => .ok flat

/-- The keys of an operation mapping that name no operation. -/
def reservedKeys : List String :=
  ["model", "operations", "rawOperations", "raw_operations", "plural"]

/-- The operations that a mapping lists, and after them those that it has as keys. -/
def operationNames (mapping : Mapping) : Except Fault (List Value) := do
  let listed ← parts (Value.orElse (mapping.get? "operations") fun _ => .list [])
  let keys := mapping.filter fun entry =>
    !(reservedKeys.any fun key => entry.1.same (.text key)) && !entry.2.isVacant
  .ok (listed ++ keys.map fun entry => .scalar entry.1)

def listedRawOperations (mapping : Mapping) : Except Fault (List Value) :=
  parts (Value.orElse (mapping.get? "rawOperations") fun _ =>
    Value.orElse (mapping.get? "raw_operations") fun _ => .list [])

def isRawName : Value → Bool
  | .scalar (.text name) => Operation.rawNames.contains name
  | _ => false

/-- The operation that a value names; unknown names stand for none. -/
def canonicalOperation? (name : Value) : Except Fault (Option Operation) :=
  match name with
  | .scalar (.text label) => .ok (Operation.canonical? label)
  | other => if other.isFixed then .ok none else .error .notFixed

def withoutRepetitions (seen : List Value) : List Value → Except Fault (List Value)
  | [] => .ok []
  | item :: rest =>
      if !item.isFixed then .error .notFixed
      else if seen.any item.same then withoutRepetitions seen rest
      else (withoutRepetitions (item :: seen) rest).map (item :: ·)

/-- An operation mapping that lists its operations by their canonical names. -/
def canonicalMapping (value : Value) : Except Fault Value := do
  let mapping ← entries value
  let listedRaw ← listedRawOperations mapping
  let names ← operationNames mapping
  let operations ← (names.filter (!isRawName ·)).mapM canonicalOperation?
  let raw ← withoutRepetitions [] (listedRaw ++ names.filter isRawName)
  .ok (.object [("model", (mapping.get? "model").getD .null),
    ("operations", .texts ((operations.filterMap id).map Operation.label)),
    ("rawOperations", .list raw)])

/-- Bring the operation mappings, under either spelling of their key, to their canonical form. -/
def canonicalMappings (flat : Mapping) : Except Fault Mapping :=
  let rest := (flat.erase "modelOperations").erase "model_operations"
  let mappings := (flat.get? "modelOperations").or (flat.get? "model_operations")
  match mappings with
  | none | some .null => .ok rest
  | some value => do
      let items ← parts value
      let mappings ← items.mapM canonicalMapping
      .ok (rest.put "modelOperations" (.list mappings))

/-- The flat layout of a metadata section. -/
def flatten (data : Mapping) : Except Fault Mapping := do
  let flat ← liftModels data (liftProvider data (flatPart data))
  let flat ← liftTypes data flat
  let flat ← mergeEnums (liftMappings data flat)
  canonicalMappings flat

end ZodSchemas.Source
