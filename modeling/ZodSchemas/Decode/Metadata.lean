import ZodSchemas.Decode.Record
import ZodSchemas.Metadata.Document

namespace ZodSchemas.Decode

/-!
# Reading metadata

Unknown keys are ignored everywhere.  Enumeration values may be texts or objects
with a name, and neither the values of an enumeration nor the names of models may
repeat.
-/

open ZodSchemas.Data
open ZodSchemas.Metadata

/-- The texts that occur more than once, sorted. -/
def duplicates (names : List String) : List String :=
  Text.sorted ((distinct names).filter fun name => 1 < names.count name)

/-- Refuse repeated texts. -/
def refuseDuplicates (what : String) (names : List String) : Option Cause :=
  let repeated := duplicates names
  if repeated.isEmpty then none
  else some (.refused ("Duplicate " ++ what ++ ": " ++ Text.literalList repeated))

def alternativeNames : List FieldName :=
  [.single "type", ⟨"isList", "is_list"⟩, .single "location", .single "namespace"]

def alternative : Value → Decoded TypeAlternative :=
  record "InputTypeAlternative" fun entries =>
    TypeAlternative.mk
      <$> required (.single "type") filledText entries
      <*> optional ⟨"isList", "is_list"⟩ false boolean entries
      <*> optional (.single "location") .scalar (member Location.all Location.label) entries
      <*> optional (.single "namespace") none (orNull text) entries

/-- Read a composite field. -/
def inputField : Value → Decoded InputField :=
  record "SchemaArg" fun entries =>
    InputField.mk
      <$> required (.single "name") filledText entries
      <*> optional ⟨"isRequired", "is_required"⟩ false boolean entries
      <*> optional ⟨"isNullable", "is_nullable"⟩ false boolean entries
      <*> optional ⟨"inputTypes", "input_types"⟩ [] (list alternative) entries

def composite : Value → Decoded Composite :=
  record "InputObjectType" fun entries =>
    Composite.mk
      <$> required (.single "name") filledText entries
      <*> optional (.single "fields") [] (list inputField) entries

def modelField : Value → Decoded ModelField :=
  record "ModelField" fun entries =>
    ModelField.mk
      <$> required (.single "name") filledText entries
      <*> optional (.single "kind") .scalar (member FieldKind.all FieldKind.label) entries
      <*> required (.single "type") filledText entries
      <*> optional ⟨"isList", "is_list"⟩ false boolean entries
      <*> optional ⟨"isRequired", "is_required"⟩ true boolean entries

def model : Value → Decoded Model :=
  record "Model" fun entries =>
    Model.mk
      <$> required (.single "name") filledText entries
      <*> optional (.single "fields") [] (list modelField) entries

/-- Replace an object by its name. -/
def flattenValue? : Value → Option Value
  | .mapping entries => Mapping.get? entries "name"
  | value => some value

/-- Replace the objects in a list of enumeration values by their names; an object without a name
interrupts the reading. -/
def flattenValues : Value → Decoded Value
  | .list items =>
      match items.mapM flattenValue? with
      | some flattened => .accepted (.list flattened)
      | none => .interrupted
  | value => .accepted value

def enumValues (value : Value) : Decoded (List String) :=
  (((flattenValues value).andThen (list text)).check fun values =>
    if values.isEmpty then some .emptyList else none).check
      (refuseDuplicates "enum values detected")

def enumType : Value → Decoded EnumType :=
  record "EnumType" fun entries =>
    EnumType.mk
      <$> required (.single "name") filledText entries
      <*> required (.single "values") enumValues entries

/-- Read an operation mapping; repeated operations are listed once. -/
def operationMapping : Value → Decoded OperationMapping :=
  record "ModelOperationMapping" fun entries =>
    OperationMapping.mk
      <$> required (.single "model") filledText entries
      <*> optional (.single "operations") []
        (fun value => (list (member Operation.all Operation.label) value).map distinct) entries
      <*> optional ⟨"rawOperations", "raw_operations"⟩ [] (list text) entries

/-- Read the aggregate support of a model. -/
def aggregateSupport : Value → Decoded AggregateSupport :=
  record "AggregateSupport" fun entries =>
    AggregateSupport.mk
      <$> optional (.single "count") false boolean entries
      <*> optional (.single "min") false boolean entries
      <*> optional (.single "max") false boolean entries
      <*> optional (.single "avg") false boolean entries
      <*> optional (.single "sum") false boolean entries

def documentNames : List FieldName :=
  [.single "provider", ⟨"previewFeatures", "preview_features"⟩, .single "models", .single "enums",
    ⟨"inputObjectTypes", "input_object_types"⟩, ⟨"modelOperations", "model_operations"⟩,
    ⟨"aggregateSupport", "aggregate_support"⟩]

def documentFields (entries : Mapping) : Decoded Document :=
  Document.mk
    <$> optional (.single "provider") .postgresql (member Provider.all Provider.label) entries
    <*> optional ⟨"previewFeatures", "preview_features"⟩ [] (list text) entries
    <*> optional (.single "models") [] (list model) entries
    <*> optional (.single "enums") [] (list enumType) entries
    <*> optional ⟨"inputObjectTypes", "input_object_types"⟩ [] (list composite) entries
    <*> optional ⟨"modelOperations", "model_operations"⟩ [] (list operationMapping) entries
    <*> optional ⟨"aggregateSupport", "aggregate_support"⟩ none
      (orNull (dictionary aggregateSupport)) entries

def documentRecord : String := "MetadataDocument"

/-- Read a metadata document; model names may not repeat. -/
def document (value : Value) : Decoded Document :=
  (record documentRecord documentFields value).check fun document =>
    refuseDuplicates "model names" (document.models.map (·.name))

end ZodSchemas.Decode
