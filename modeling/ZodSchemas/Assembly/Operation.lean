import ZodSchemas.Assembly.Projection
import ZodSchemas.SchemaUnit.Basic

namespace ZodSchemas.Assembly

/-!
# Units of operations

Each operation of a model becomes an object of its arguments, which is not
strict.  Only the bulk query defers its projections: composites refer to it, so
its module may be evaluated before theirs.
-/

open Metadata

/-- A reference to a composite. -/
def object (name : String) : Expr :=
  .reference ⟨name, .object⟩

/-- One value of a composite, or a list of them. -/
def oneOrMany (name : String) : Expr :=
  .union [object name, .array (object name)]

def number : Expr := .primitive "z.number()"

def truthValue : Expr := .primitive "z.boolean()"

def projectionArgument (deferred : Bool) (argument composite : String) : String × Expr :=
  (argument,
    .optional (if deferred then .deferred (object composite) (some composite) else object composite))

/-- The arguments that choose projections, each where it is emitted. -/
def projectionArguments (context : Context) (model : Model) (deferred : Bool) :
    List (String × Expr) :=
  (if context.emitsSelect then
      [projectionArgument deferred "select" (selectName model.name)]
    else [])
  ++ (if context.emitsInclude && model.hasRelation then
      [projectionArgument deferred "include" (includeName model.name)]
    else [])

def ordering (context : Context) (model : Model) : Expr :=
  oneOrMany (model.name
    ++ (if context.ordersByRelevance then "OrderByWithRelationAndSearchRelevanceInput"
        else "OrderByWithRelationInput"))

/-- The optional condition on results. -/
def condition (model : Model) : String × Expr :=
  ("where", .optional (object (model.name ++ "WhereInput")))

/-- The composite that identifies one record. -/
def identity (model : Model) : Expr :=
  object (model.name ++ "WhereUniqueInput")

def identityCondition (model : Model) : String × Expr :=
  ("where", identity model)

/-- How many results are taken. -/
def takeArgument : String × Expr :=
  ("take", .optional number)

/-- How many results are skipped. -/
def skipArgument : String × Expr :=
  ("skip", .optional number)

/-- The arguments that choose a page of the results. -/
def pageArguments (model : Model) : List (String × Expr) :=
  [("cursor", .optional (identity model)), takeArgument, skipArgument]

def newData (model : Model) : Expr :=
  .union [object (model.name ++ "CreateInput"), object (model.name ++ "UncheckedCreateInput")]

def changedData (model : Model) : Expr :=
  .union [object (model.name ++ "UpdateInput"), object (model.name ++ "UncheckedUpdateInput")]

def fieldEnum (model : Model) : Expr :=
  .reference ⟨model.name ++ "ScalarFieldEnum", .enumeration⟩

/-- The arguments of a search for several records, without distinction. -/
def rangeArguments (context : Context) (model : Model) : List (String × Expr) :=
  [("orderBy", .optional (ordering context model)), condition model] ++ pageArguments model

/-- The arguments of a search for several records. -/
def searchArguments (context : Context) (model : Model) : List (String × Expr) :=
  rangeArguments context model ++ [("distinct", .optional (.array (fieldEnum model)))]

def aggregateArgument (model : Model) (aggregate : Aggregate) : String × Expr :=
  ("_" ++ aggregate.label, .optional (object (model.name ++ aggregate.inputSuffix)))

def aggregateArguments (support : AggregateSupport) (model : Model) : List (String × Expr) :=
  (Aggregate.all.filter support.has).map (aggregateArgument model)

def arguments (context : Context) (support : AggregateSupport) (model : Model) :
    Operation → List (String × Expr)
  | .findUnique | .deleteOne =>
      projectionArguments context model false ++ [identityCondition model]
  | .findFirst => projectionArguments context model false ++ searchArguments context model
  | .findMany => projectionArguments context model true ++ searchArguments context model
  | .createOne => projectionArguments context model false ++ [("data", newData model)]
  | .createMany =>
      ("data", oneOrMany (model.name ++ "CreateManyInput")) ::
        (if context.skipsDuplicates then [("skipDuplicates", .optional truthValue)] else [])
  | .deleteMany => [condition model]
  | .updateOne =>
      projectionArguments context model false
        ++ [("data", changedData model), identityCondition model]
  | .updateMany =>
      [("data", object (model.name ++ "UpdateManyMutationInput")), condition model]
  | .upsertOne =>
      projectionArguments context model false
        ++ [identityCondition model, ("create", newData model), ("update", changedData model)]
  | .aggregate => rangeArguments context model ++ aggregateArguments support model
  | .groupBy =>
      [condition model,
        ("orderBy", oneOrMany (model.name ++ "OrderByWithAggregationInput")),
        ("having", .optional (object (model.name ++ "ScalarWhereWithAggregatesInput"))),
        takeArgument, skipArgument,
        ("by", .array (fieldEnum model))]

def modelSupport (document : Document) (model : Model) : AggregateSupport :=
  (document.support.lookup model.name).getD .nothing

def operationUnit (context : Context) (document : Document) (model : Model)
    (operation : Operation) : SchemaUnit where
  kind := .operation
  name := operationUnitName model.name operation
  expression :=
    some (.object (arguments context (modelSupport document model) model operation) false)
  hostType := none
  members := []

/-- The operations of a mapping, in the order of the vocabulary. -/
def mappedOperations (mapping : OperationMapping) : List Operation :=
  Operation.all.filter mapping.supports

end ZodSchemas.Assembly
