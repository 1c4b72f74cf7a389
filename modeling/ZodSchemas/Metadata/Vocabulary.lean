namespace ZodSchemas.Metadata

/-!
# Closed vocabularies of the metadata

The places where an alternative is declared, the kinds of model fields, the
database providers and the twelve operations.  Each vocabulary lists its members
in declaration order in `all` and spells them with `label`.
-/

/-- Where the type of an alternative is declared. -/
inductive Location where
  | scalar
  | enumTypes
  | inputObjectTypes
  | fieldRefTypes
deriving Repr, DecidableEq

namespace Location

/-- Every place, in declaration order. -/
def all : List Location :=
  [.scalar, .enumTypes, .inputObjectTypes, .fieldRefTypes]

/-- The spelling of a place in documents. -/
def label : Location → String
  | .scalar => "scalar"
  | .enumTypes => "enumTypes"
  | .inputObjectTypes => "inputObjectTypes"
  | .fieldRefTypes => "fieldRefTypes"

end Location

/-- The kind of a model field. -/
inductive FieldKind where
  | scalar
  | object
  | enumeration
  | unsupported
deriving Repr, DecidableEq

namespace FieldKind

/-- Every kind, in declaration order. -/
def all : List FieldKind :=
  [.scalar, .object, .enumeration, .unsupported]

/-- The spelling of a kind in documents. -/
def label : FieldKind → String
  | .scalar => "scalar"
  | .object => "object"
  | .enumeration => "enum"
  | .unsupported => "unsupported"

end FieldKind

/-- A database that the metadata may come from. -/
inductive Provider where
  | postgresql
  | mysql
  | sqlite
  | sqlserver
  | mongodb
  | cockroachdb
deriving Repr, DecidableEq

namespace Provider

/-- Every provider, in declaration order. -/
def all : List Provider :=
  [.postgresql, .mysql, .sqlite, .sqlserver, .mongodb, .cockroachdb]

/-- The spelling of a provider in documents. -/
def label : Provider → String
  | .postgresql => "postgresql"
  | .mysql => "mysql"
  | .sqlite => "sqlite"
  | .sqlserver => "sqlserver"
  | .mongodb => "mongodb"
  | .cockroachdb => "cockroachdb"

/-- Whether bulk creation may skip duplicates. -/
def skipsDuplicates (provider : Provider) : Bool :=
  provider == .postgresql || provider == .cockroachdb

/-- Whether full text search changes the ordering types. -/
def searchesFullText (provider : Provider) : Bool :=
  provider == .postgresql || provider == .mysql

end Provider

/-- An operation on a model. -/
inductive Operation where
  | findUnique
  | findFirst
  | findMany
  | createOne
  | createMany
  | deleteOne
  | deleteMany
  | updateOne
  | updateMany
  | upsertOne
  | aggregate
  | groupBy
deriving Repr, DecidableEq

namespace Operation

/-- Every operation, in declaration order. -/
def all : List Operation :=
  [.findUnique, .findFirst, .findMany, .createOne, .createMany, .deleteOne, .deleteMany,
    .updateOne, .updateMany, .upsertOne, .aggregate, .groupBy]

/-- The spelling of an operation in documents. -/
def label : Operation → String
  | .findUnique => "findUnique"
  | .findFirst => "findFirst"
  | .findMany => "findMany"
  | .createOne => "createOne"
  | .createMany => "createMany"
  | .deleteOne => "deleteOne"
  | .deleteMany => "deleteMany"
  | .updateOne => "updateOne"
  | .updateMany => "updateMany"
  | .upsertOne => "upsertOne"
  | .aggregate => "aggregate"
  | .groupBy => "groupBy"

/-- The verb that unit names end in. -/
def verb : Operation → String
  | .findUnique => "FindUnique"
  | .findFirst => "FindFirst"
  | .findMany => "FindMany"
  | .createOne => "CreateOne"
  | .createMany => "CreateMany"
  | .deleteOne => "DeleteOne"
  | .deleteMany => "DeleteMany"
  | .updateOne => "UpdateOne"
  | .updateMany => "UpdateMany"
  | .upsertOne => "Upsert"
  | .aggregate => "Aggregate"
  | .groupBy => "GroupBy"

def ofLabel? (name : String) : Option Operation :=
  all.find? (·.label == name)

/-- The other names under which a document may list an operation. -/
def aliases : List (String × Operation) :=
  [("create", .createOne), ("update", .updateOne), ("delete", .deleteOne),
    ("upsert", .upsertOne), ("findUniqueOrThrow", .findUnique), ("findFirstOrThrow", .findFirst)]

/-- The operation that a name in a document stands for. -/
def canonical? (name : String) : Option Operation :=
  match aliases.lookup name with
  | some operation => some operation
  | none => ofLabel? name

/-- The names of the operations that bypass the model. -/
def rawNames : List String :=
  ["findRaw", "aggregateRaw"]

end Operation

/-- An aggregate that a model may support. -/
inductive Aggregate where
  | count
  | min
  | max
  | avg
  | sum
deriving Repr, DecidableEq

namespace Aggregate

/-- Every aggregate, in declaration order. -/
def all : List Aggregate :=
  [.count, .min, .max, .avg, .sum]

/-- The spelling of an aggregate in documents. -/
def label : Aggregate → String
  | .count => "count"
  | .min => "min"
  | .max => "max"
  | .avg => "avg"
  | .sum => "sum"

/-- The spelling of an aggregate inside type names. -/
def word : Aggregate → String
  | .count => "Count"
  | .min => "Min"
  | .max => "Max"
  | .avg => "Avg"
  | .sum => "Sum"

/-- What the name of a composite type with the aggregate's fields ends in. -/
def inputSuffix (aggregate : Aggregate) : String :=
  aggregate.word ++ "AggregateInput"

end Aggregate

end ZodSchemas.Metadata
