import ZodSchemas.Data.Value
import ZodSchemas.Metadata.Document

namespace ZodSchemas.Encode

/-!
# Writing metadata as document values

Every field is written under its document spelling, and members of vocabularies
as their labels.  What is written reads back as the same metadata.
-/

open Data
open Metadata

def alternative (alternative : TypeAlternative) : Value :=
  .object [("type", .text alternative.typeName), ("isList", .bool alternative.isList),
    ("location", .text alternative.location.label), ("namespace", .textOrNull alternative.origin)]

/-- Write a composite field. -/
def inputField (field : InputField) : Value :=
  .object [("name", .text field.name), ("isRequired", .bool field.isRequired),
    ("isNullable", .bool field.isNullable),
    ("inputTypes", .list (field.alternatives.map Encode.alternative))]

def composite (composite : Composite) : Value :=
  .object [("name", .text composite.name), ("fields", .list (composite.fields.map inputField))]

def modelField (field : ModelField) : Value :=
  .object [("name", .text field.name), ("kind", .text field.kind.label),
    ("type", .text field.typeName), ("isList", .bool field.isList),
    ("isRequired", .bool field.isRequired)]

def model (model : Model) : Value :=
  .object [("name", .text model.name), ("fields", .list (model.fields.map modelField))]

def enumType (enumType : EnumType) : Value :=
  .object [("name", .text enumType.name), ("values", .texts enumType.values)]

def operationMapping (mapping : OperationMapping) : Value :=
  .object [("model", .text mapping.model),
    ("operations", .texts (mapping.operations.map Operation.label)),
    ("rawOperations", .texts mapping.rawOperations)]

/-- Write the aggregate support of a model. -/
def aggregateSupport (support : AggregateSupport) : Value :=
  .object [("count", .bool support.count), ("min", .bool support.min), ("max", .bool support.max),
    ("avg", .bool support.avg), ("sum", .bool support.sum)]

/-- Write the aggregate support of several models. -/
def supportTable (table : List (String × AggregateSupport)) : Value :=
  .object (table.map fun entry => (entry.1, aggregateSupport entry.2))

/-- Write a metadata document, with the names of its enumerations. -/
def document (document : Document) : Value :=
  .object [("provider", .text document.provider.label),
    ("previewFeatures", .texts document.previewFeatures),
    ("models", .list (document.models.map model)),
    ("enums", .list (document.enums.map enumType)),
    ("inputObjectTypes", .list (document.composites.map composite)),
    ("modelOperations", .list (document.mappings.map operationMapping)),
    ("aggregateSupport",
      match document.aggregateSupport with
      | some table => supportTable table
      | none => .null),
    ("enumNames", .texts document.enumNames)]

end ZodSchemas.Encode
