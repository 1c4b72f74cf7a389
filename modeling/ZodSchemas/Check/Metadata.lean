import ZodSchemas.Check.Finding
import ZodSchemas.Decode.Metadata
import ZodSchemas.Text.Identifier

namespace ZodSchemas.Check

/-!
# Checks of the metadata

What the parts of a document say about each other: names that repeat or clash,
relations, enumerations and operations of models that do not exist, and fields
that no alternative gives a validator.
-/

open ZodSchemas.Metadata

/-- The members of a list that have occurred before, in order. -/
def repetitions (seen : List String) : List String → List String
  | [] => []
  | name :: rest =>
      (if seen.contains name then [name] else []) ++ repetitions (name :: seen) rest

def modelNames (document : Document) : List String :=
  document.models.map (·.name)

/-- The errors in the names of a model and of its fields. -/
def modelNaming (model : Model) : Findings :=
  (if Text.isIdentifier model.name then []
    else
      [.error "MODEL_NAME_INVALID" ("Model name '" ++ model.name ++ "' is not a valid identifier.")
        [("model", model.name)]])
  ++ (repetitions [] (model.fields.map (·.name))).map fun field =>
      .error "FIELD_NAME_DUPLICATE"
        ("Field '" ++ field ++ "' appears more than once in '" ++ model.name ++ "'.")
        [("model", model.name), ("field", field)]

/-- Check the names of models and of their fields. -/
def naming (document : Document) : Findings :=
  document.models.flatMap modelNaming

/-- The error in a relation to an unknown model. -/
def relationFinding? (names : List String) (model : Model) (relation : ModelField) :
    Option Finding :=
  if names.contains relation.typeName then none
  else
    some (.error "RELATION_TARGET_UNKNOWN"
      ("Relation '" ++ model.name ++ "." ++ relation.name ++ "' targets unknown model '"
        ++ relation.typeName ++ "'.")
      [("model", model.name), ("field", relation.name), ("target", relation.typeName)])

def relations (document : Document) : Findings :=
  document.models.flatMap fun model =>
    model.relations.filterMap (relationFinding? (modelNames document) model)

/-- The names that two lists share, sorted and each once. -/
def shared (names others : List String) : List String :=
  Text.sorted ((distinct names).filter others.contains)

/-- The warning about a field of an undeclared enumeration. -/
def unknownEnumFinding? (names : List String) (model : Model) (field : ModelField) :
    Option Finding :=
  if field.kind = .enumeration ∧ !names.contains field.typeName then
    some (.warning "ENUM_UNKNOWN"
      ("Field '" ++ model.name ++ "." ++ field.name ++ "' uses undeclared enum '"
        ++ field.typeName ++ "'.")
      [("model", model.name), ("field", field.name)])
  else
    none

/-- Check the names and uses of enumerations. -/
def enumerations (document : Document) : Findings :=
  (Decode.duplicates document.enumNames).map (fun name =>
      .error "ENUM_NAME_DUPLICATE" ("Enum '" ++ name ++ "' is declared more than once.")
        [("enum", name)])
  ++ (shared document.enumNames (modelNames document)).map (fun name =>
      .warning "ENUM_MODEL_NAME_CLASH" ("Enum '" ++ name ++ "' has the same name as a model.")
        [("enum", name)])
  ++ document.models.flatMap fun model =>
      model.fields.filterMap (unknownEnumFinding? document.enumNames model)

/-- The remark on a field that will be left out. -/
def omissionFinding? (composite : Composite) (field : InputField) : Option Finding :=
  let details := [("type", composite.name), ("field", field.name)]
  let subject := "Field '" ++ composite.name ++ "." ++ field.name ++ "'"
  if field.alternatives.isEmpty then
    some (.info "FIELD_WITHOUT_ALTERNATIVES"
      (subject ++ " has no input types and will be omitted.") details)
  else if field.alternatives.all (·.location == .fieldRefTypes) then
    some (.info "FIELD_REF_ONLY"
      (subject ++ " only accepts field references and will be omitted.") details)
  else
    none

/-- Check the names of composites and the alternatives of their fields. -/
def composites (document : Document) : Findings :=
  (Decode.duplicates (document.composites.map (·.name))).map (fun name =>
      .error "INPUT_TYPE_DUPLICATE"
        ("Input object type '" ++ name ++ "' is declared more than once.") [("type", name)])
  ++ document.composites.flatMap fun composite =>
      composite.fields.filterMap (omissionFinding? composite)

/-- The findings about an operation mapping that follows mappings of the seen models. -/
def mappingFindings (document : Document) (seen : List String) (mapping : OperationMapping) :
    Findings :=
  (if (modelNames document).contains mapping.model then []
    else
      [.error "MODEL_NOT_FOUND" ("Operation mapping names unknown model '" ++ mapping.model ++ "'.")
        [("model", mapping.model)]])
  ++ (if seen.contains mapping.model then
        [.warning "OPERATION_MAPPING_DUPLICATE"
          ("Model '" ++ mapping.model
            ++ "' has more than one operation mapping; only the first is used.")
          [("model", mapping.model)]]
      else
        [])
  ++ (if mapping.rawOperations.isEmpty ∨ document.provider = .mongodb then []
      else
        [.warning "RAW_OPERATIONS_IGNORED"
          ("Raw operations of '" ++ mapping.model ++ "' are only remapped for mongodb.")
          [("model", mapping.model), ("provider", document.provider.label)]])

/-- The findings about operation mappings, with the models seen before. -/
def mappingsFrom (document : Document) : List String → List OperationMapping → Findings
  | _, [] => []
  | seen, mapping :: rest =>
      mappingFindings document seen mapping ++ mappingsFrom document (mapping.model :: seen) rest

def mappings (document : Document) : Findings :=
  mappingsFrom document [] document.mappings

/-- All checks that need the metadata alone. -/
def metadata (document : Document) : Findings :=
  naming document ++ relations document ++ enumerations document ++ composites document
    ++ mappings document

end ZodSchemas.Check
