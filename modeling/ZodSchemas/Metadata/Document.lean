import ZodSchemas.Metadata.Vocabulary

namespace ZodSchemas.Metadata

/-!
# The metadata document

What the introspection of a database hands over: data models with their
relations, enumerations, composite input types with the alternatives of their
fields, and the operations each model supports.
-/

/-- One of the types that a field of a composite may take. -/
structure TypeAlternative where
  typeName : String
  isList : Bool
  location : Location
  origin : Option String
deriving Repr, DecidableEq

/-- A field of a composite; an empty list of alternatives leaves it without a type. -/
structure InputField where
  name : String
  isRequired : Bool
  isNullable : Bool
  alternatives : List TypeAlternative
deriving Repr, DecidableEq

/-- A composite input type. -/
structure Composite where
  name : String
  fields : List InputField
deriving Repr, DecidableEq

/-- A field of a data model. -/
structure ModelField where
  name : String
  kind : FieldKind
  typeName : String
  isList : Bool
  isRequired : Bool
deriving Repr, DecidableEq

/-- A data model. -/
structure Model where
  name : String
  fields : List ModelField
deriving Repr, DecidableEq

/-- An enumeration with its values in order. -/
structure EnumType where
  name : String
  values : List String
deriving Repr, DecidableEq

/-- The operations that a model supports. -/
structure OperationMapping where
  model : String
  operations : List Operation
  rawOperations : List String
deriving Repr, DecidableEq

/-- Which aggregates a model supports. -/
structure AggregateSupport where
  count : Bool
  min : Bool
  max : Bool
  avg : Bool
  sum : Bool
deriving Repr, DecidableEq

/-- Everything one run works on. -/
structure Document where
  provider : Provider
  previewFeatures : List String
  models : List Model
  enums : List EnumType
  composites : List Composite
  mappings : List OperationMapping
  aggregateSupport : Option (List (String × AggregateSupport))
deriving Repr, DecidableEq

def TypeAlternative.isScalar (alternative : TypeAlternative) : Bool :=
  alternative.location == .scalar

/-- The one-line form of an alternative. -/
def TypeAlternative.summary (alternative : TypeAlternative) : String :=
  "<Alternative " ++ alternative.typeName ++ (if alternative.isList then "[]" else "")
    ++ " @" ++ alternative.location.label ++ ">"

/-- The one-line form of a composite field. -/
def InputField.summary (field : InputField) : String :=
  "<SchemaArg " ++ field.name ++ " (" ++ toString field.alternatives.length ++ " alternative(s))>"

/-- The one-line form of a composite. -/
def Composite.summary (composite : Composite) : String :=
  "<InputObjectType " ++ composite.name ++ " (" ++ toString composite.fields.length ++ " fields)>"

/-- Whether a field relates its model to another one. -/
def ModelField.isRelation (field : ModelField) : Bool :=
  field.kind == .object

namespace Model

def relations (model : Model) : List ModelField :=
  model.fields.filter ModelField.isRelation

def hasRelation (model : Model) : Bool :=
  model.fields.any ModelField.isRelation

def hasManyRelation (model : Model) : Bool :=
  model.fields.any fun field => field.isRelation && field.isList

/-- The one-line form of a model. -/
def summary (model : Model) : String :=
  "<Model " ++ model.name ++ " (" ++ toString model.fields.length ++ " fields)>"

end Model

/-- Whether a mapping lists an operation. -/
def OperationMapping.supports (mapping : OperationMapping) (operation : Operation) : Bool :=
  mapping.operations.contains operation

namespace AggregateSupport

def nothing : AggregateSupport :=
  ⟨false, false, false, false, false⟩

def has (support : AggregateSupport) : Aggregate → Bool
  | .count => support.count
  | .min => support.min
  | .max => support.max
  | .avg => support.avg
  | .sum => support.sum

def adding (support : AggregateSupport) : Aggregate → AggregateSupport
  | .count => { support with count := true }
  | .min => { support with min := true }
  | .max => { support with max := true }
  | .avg => { support with avg := true }
  | .sum => { support with sum := true }

end AggregateSupport

/-- The first entry of an association list with a key, replaced by its update; an absent key is
appended with the update of `initial`. -/
def updateEntry (key : String) (initial : α) (update : α → α) :
    List (String × α) → List (String × α)
  | [] => [(key, update initial)]
  | (other, value) :: rest =>
      if other = key then (other, update value) :: rest
      else (other, value) :: updateEntry key initial update rest

/-- The members of a list without later repetitions. -/
def distinct [DecidableEq α] : List α → List α
  | [] => []
  | item :: rest => item :: (distinct rest).filter (· ≠ item)

/-- The aggregate whose suffix a composite name ends in. -/
def aggregateOf? (name : String) : Option Aggregate :=
  Aggregate.all.find? fun aggregate => aggregate.inputSuffix.toList.isSuffixOf name.toList

/-- Whether a composite name is that of an aggregate input. -/
def isAggregateInput (name : String) : Bool :=
  (aggregateOf? name).isSome

/-- The model that an aggregate input belongs to. -/
def aggregateModel (aggregate : Aggregate) (name : String) : String :=
  String.ofList (name.toList.take (name.toList.length - aggregate.inputSuffix.toList.length))

/-- Whether a text occurs in another one. -/
def occursIn (part : List Char) : List Char → Bool
  | [] => part.isEmpty
  | char :: rest => part.isPrefixOf (char :: rest) || occursIn part rest

/-- Whether `Raw` follows a verb of raw operations before the end of the line. -/
def hasRawAfterVerb (verb : List Char) : List Char → Bool
  | [] => false
  | char :: rest =>
      (verb.isPrefixOf (char :: rest)
          && occursIn "Raw".toList (((char :: rest).drop verb.length).takeWhile (· != '\n')))
        || hasRawAfterVerb verb rest

/-- Whether a type name has the form of a raw operation: a verb, then `Raw` on the same line. -/
def isRawOperationType (name : String) : Bool :=
  hasRawAfterVerb "find".toList name.toList || hasRawAfterVerb "aggregate".toList name.toList

/-- A text with every occurrence of a non-empty part left out, from left to right. -/
def without (part : List Char) (chars : List Char) : List Char :=
  match chars with
  | [] => []
  | char :: rest =>
      if part.isPrefixOf (char :: rest) ∧ part ≠ [] then without part (rest.drop (part.length - 1))
      else char :: without part rest
termination_by chars.length
decreasing_by
  · simp only [List.length_drop, List.length_cons]
    omega
  · simp only [List.length_cons]
    omega

/-- A text with every occurrence of a part left out. -/
def removeAll (part text : String) : String :=
  String.ofList (without part.toList text.toList)

/-- The entry of one raw operation and one model: input type name, then argument type name. -/
def rawOperationEntry (operation model : String) : String × String :=
  (removeAll "Raw" operation ++ model ++ "Raw",
    model ++ (if operation = "findRaw" then "FindRawArgs" else "AggregateRawArgs"))

/-- The argument types of raw operations by input type name; every raw operation that some mapping
lists is combined with every mapped model, and a later combination takes over the entry of an
earlier one. -/
def rawOperationTable (mappings : List OperationMapping) : List (String × String) :=
  let operations := distinct (mappings.flatMap (·.rawOperations))
  let entries := operations.flatMap fun operation =>
    mappings.map fun mapping => rawOperationEntry operation mapping.model
  entries.foldl (fun table entry => updateEntry entry.1 entry.2 (fun _ => entry.2) table) []

namespace Document

def model? (document : Document) (name : String) : Option Model :=
  document.models.find? (·.name == name)

def composite? (document : Document) (name : String) : Option Composite :=
  document.composites.find? (·.name == name)

def mapping? (document : Document) (model : String) : Option OperationMapping :=
  document.mappings.find? (·.model == model)

def enumNames (document : Document) : List String :=
  document.enums.map (·.name)

/-- The aggregate support that follows from the names of the composites. -/
def derivedSupport (document : Document) : List (String × AggregateSupport) :=
  document.composites.foldl (fun table composite =>
    match aggregateOf? composite.name with
    | some aggregate =>
        updateEntry (aggregateModel aggregate composite.name) AggregateSupport.nothing
          (·.adding aggregate) table
    | none => table) []

/-- The aggregate support by model: what the document states, or else what its composites show. -/
def support (document : Document) : List (String × AggregateSupport) :=
  document.aggregateSupport.getD document.derivedSupport

/-- The one-line form of a document. -/
def summary (document : Document) : String :=
  "<MetadataDocument " ++ document.provider.label ++ ": "
    ++ toString document.models.length ++ " models, "
    ++ toString document.enums.length ++ " enums, "
    ++ toString document.composites.length ++ " input types>"

end Document

end ZodSchemas.Metadata
