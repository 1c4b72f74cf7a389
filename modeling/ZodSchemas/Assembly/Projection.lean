import ZodSchemas.Assembly.Field

namespace ZodSchemas.Assembly

/-!
# Projection composites

The composites that choose which fields and relations of a model are returned
follow from its relations.  They are ordinary composites, and a declared one of
the same name takes precedence.
-/

open Metadata

/-- The alternative that takes or leaves a field. -/
def flagAlternative : TypeAlternative :=
  ⟨"Boolean", false, .scalar, none⟩

def hostAlternative (typeName : String) : TypeAlternative :=
  ⟨typeName, false, .inputObjectTypes, some hostOrigin⟩

/-- A field that may be absent. -/
def optionalField (name : String) (alternatives : List TypeAlternative) : InputField :=
  ⟨name, false, false, alternatives⟩

/-- The field that counts the relations to many. -/
def countField : String := "_count"

/-- The name of the composite that includes relations. -/
def includeName (model : String) : String := model ++ "Include"

/-- The name of the composite that selects fields. -/
def selectName (model : String) : String := model ++ "Select"

/-- The name of the composite with the arguments of a nested projection. -/
def defaultArgumentsName (model : String) : String := model ++ "DefaultArgs"

def countSelectName (model : String) : String := model ++ "CountOutputTypeSelect"

def countArgumentsName (model : String) : String := model ++ "CountOutputTypeDefaultArgs"

/-- The projection of a relation: a flag, or the arguments of a nested query. -/
def relationField (field : ModelField) : InputField :=
  optionalField field.name
    [flagAlternative,
      hostAlternative
        (if field.isList then field.typeName ++ bulkQueryMark
          else defaultArgumentsName field.typeName)]

/-- The projection of counts, for a model with a relation to many. -/
def countFields (context : Context) (model : Model) : List InputField :=
  if model.hasManyRelation then
    [optionalField countField
      (flagAlternative ::
        (if context.emitsSelect then [hostAlternative (countArgumentsName model.name)] else []))]
  else
    []

def includeComposite (context : Context) (model : Model) : Composite where
  name := includeName model.name
  fields := model.relations.map relationField ++ countFields context model

def selectField (field : ModelField) : InputField :=
  if field.isRelation then relationField field else optionalField field.name [flagAlternative]

def selectComposite (context : Context) (model : Model) : Composite where
  name := selectName model.name
  fields := model.fields.map selectField ++ countFields context model

def defaultArgumentsComposite (context : Context) (model : Model) : Composite where
  name := defaultArgumentsName model.name
  fields :=
    (if context.emitsSelect then
        [optionalField "select" [hostAlternative (selectName model.name)]]
      else [])
    ++ (if context.emitsInclude && model.hasRelation then
        [optionalField "include" [hostAlternative (includeName model.name)]]
      else [])

def countSelectComposite (model : Model) : Composite where
  name := countSelectName model.name
  fields := (model.relations.filter (·.isList)).map fun field =>
    optionalField field.name [flagAlternative]

def countArgumentsComposite (model : Model) : Composite where
  name := countArgumentsName model.name
  fields := [optionalField "select" [hostAlternative (countSelectName model.name)]]

def modelProjections (context : Context) (model : Model) : List Composite :=
  (if context.emitsInclude && model.hasRelation then [includeComposite context model] else [])
    ++ (if context.emitsSelect then [selectComposite context model] else [])
    ++ [defaultArgumentsComposite context model]
    ++ (if context.emitsSelect && model.hasManyRelation then
          [countSelectComposite model, countArgumentsComposite model]
        else
          [])

/-- The projection composites of several models; none unless some projection is emitted. -/
def projections (context : Context) (models : List Model) : List Composite :=
  if context.emitsSelect || context.emitsInclude then models.flatMap (modelProjections context)
  else []

/-- Add composites, each unless its name is taken. -/
def mergeComposites (declared derived : List Composite) : List Composite :=
  derived.foldl (fun merged composite =>
    if merged.any (·.name == composite.name) then merged else merged ++ [composite]) declared

/-- All composites of a document: the declared ones, then the projections. -/
def allComposites (context : Context) (document : Document) : List Composite :=
  mergeComposites document.composites (projections context document.models)

end ZodSchemas.Assembly
