import ZodSchemas.Assembly.Field

namespace ZodSchemas.Assembly

/-!
# Types of the host

Whether the host exports a type of some name is judged by the name alone.  A
wrong answer leaves a validator as it is and only adds or omits its annotation.
-/

open Metadata

/-- Types that the host always exports. -/
def knownHostTypes : List String :=
  ["JsonNullValueFilter", "JsonNullValueInput", "NullableJsonNullValueInput", "SortOrder",
    "NullsOrder", "QueryMode", "TransactionIsolationLevel"]

/-- What the names of exported enumerations of fields end in. -/
def fieldEnumEndings : List String :=
  ["ScalarFieldEnum", "OrderByRelevanceFieldEnum"]

/-- The database names that may stand before the name of an exported type. -/
def databaseNames : List String :=
  ["MySQL", "PostgreSQL", "MongoDB", "SQLite", "SQLServer"]

/-- What the names of exported input types end in. -/
def inputEndings : List String :=
  ["Filter", "Select", "Include", "WhereInput", "OrderByWithRelationInput", "WhereUniqueInput",
    "CreateInput", "UpdateInput", "UncheckedCreateInput", "UncheckedUpdateInput", "InputEnvelope",
    "OperationsInput", "AggregatesInput", "WithAggregationInput", "InputType"]

/-- What the names of the types of nested writes contain. -/
def nestedWriteMarks : List String :=
  ["CreateNestedOneWithout", "CreateNestedManyWithout", "WhereUniqueInput", "CreateWithout",
    "UncheckedCreateWithout"]

/-- Whether a name ends in one of several endings. -/
def endsIn (endings : List String) (name : List Char) : Bool :=
  endings.any fun ending => ending.toList.isSuffixOf name

/-- A name without the database name at its front. -/
def dropDatabaseName (name : List Char) : List Char :=
  match databaseNames.find? (·.toList.isPrefixOf name) with
  | some database => name.drop database.toList.length
  | none => name

/-- Whether the host exports a type of a name, as far as the name tells. -/
def isHostType (name : String) : Bool :=
  endsIn fieldEnumEndings name.toList || knownHostTypes.contains name
    || endsIn inputEndings (dropDatabaseName name.toList)

/-- Whether an alternative of a composite is a nested write of the host on another composite. -/
def isNestedWrite (composite : String) (alternative : TypeAlternative) : Bool :=
  alternative.location != .enumTypes && alternative.origin == some hostOrigin
    && alternative.typeName != composite
    && nestedWriteMarks.any fun mark => occursIn mark.toList alternative.typeName.toList

/-- Whether a composite contains nested writes. -/
def hasNestedWrites (composite : Composite) : Bool :=
  composite.fields.any fun field => field.alternatives.any (isNestedWrite composite.name)

def annotatedType? (composite : Composite) (hostType : String) : Option String :=
  if isHostType hostType || hasNestedWrites composite then some hostType else none

end ZodSchemas.Assembly
