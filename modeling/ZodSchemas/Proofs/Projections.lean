import Mathlib.Data.List.Infix
import ZodSchemas.Assembly.Projection
import ZodSchemas.Proofs.UnitNames

namespace ZodSchemas.Assembly

/-!
# Projection composites

A model has up to five projection composites.  Their names tell them from the
composites that operations take as conditions, and their fields accept a flag
or composites of the host, nothing else.
-/

open Metadata

/-- The projection composites of a model, with what has to be emitted for each. -/
inductive ProjectionOf (context : Context) (model : Model) : Composite → Prop where
  | inclusion
      (emitted : context.emitsInclude = true)
      (related : model.hasRelation = true) :
      ProjectionOf context model (includeComposite context model)
  | selection
      (emitted : context.emitsSelect = true) :
      ProjectionOf context model (selectComposite context model)
  | defaults :
      ProjectionOf context model (defaultArgumentsComposite context model)
  | countSelection
      (emitted : context.emitsSelect = true)
      (related : model.hasManyRelation = true) :
      ProjectionOf context model (countSelectComposite model)
  | countArguments
      (emitted : context.emitsSelect = true)
      (related : model.hasManyRelation = true) :
      ProjectionOf context model (countArgumentsComposite model)

/-- The projections of a model are these five, each where it is emitted. -/
theorem mem_modelProjections
    {context : Context}
    {model : Model}
    {composite : Composite}
    (member : composite ∈ modelProjections context model) :
    ProjectionOf context model composite := by
  unfold modelProjections at member
  simp only [List.mem_append] at member
  rcases member with ((inInclude | inSelect) | inDefaults) | inCounts
  · split at inInclude
    · rename_i emitted
      rw [Bool.and_eq_true] at emitted
      exact List.mem_singleton.mp inInclude ▸ .inclusion emitted.1 emitted.2
    · contradiction
  · split at inSelect
    · rename_i emitted
      exact List.mem_singleton.mp inSelect ▸ .selection emitted
    · contradiction
  · exact List.mem_singleton.mp inDefaults ▸ .defaults
  · split at inCounts
    · rename_i emitted
      rw [Bool.and_eq_true] at emitted
      rcases List.mem_cons.mp inCounts with isSelection | inRest
      · exact isSelection ▸ .countSelection emitted.1 emitted.2
      · exact List.mem_singleton.mp inRest ▸ .countArguments emitted.1 emitted.2
    · contradiction

/-- Each of the five is among the projections of its model. -/
theorem ProjectionOf.mem
    {context : Context}
    {model : Model}
    {composite : Composite}
    (projection : ProjectionOf context model composite) :
    composite ∈ modelProjections context model := by
  cases projection with
  | inclusion emitted related =>
      simp [modelProjections, emitted, related]
  | selection emitted =>
      simp [modelProjections, emitted]
  | defaults =>
      simp [modelProjections]
  | countSelection emitted related | countArguments emitted related =>
      simp [modelProjections, emitted, related]

theorem mem_projections
    {context : Context}
    {models : List Model}
    {composite : Composite}
    (member : composite ∈ projections context models) :
    ∃ model ∈ models, ProjectionOf context model composite := by
  unfold projections at member
  split at member
  · obtain ⟨model, modelMember, inModel⟩ := List.mem_flatMap.mp member
    exact ⟨model, modelMember, mem_modelProjections inModel⟩
  · contradiction

/-- What the names of projection composites end in. -/
def projectionEndings : List String :=
  ["Include", "Select", "DefaultArgs"]

theorem ProjectionOf.exists_ending
    {context : Context}
    {model : Model}
    {composite : Composite}
    (projection : ProjectionOf context model composite) :
    ∃ ending ∈ projectionEndings, ending.toList <:+ composite.name.toList := by
  cases projection with
  | inclusion =>
      exact ⟨"Include", by decide, Text.suffix_append _ _⟩
  | selection =>
      exact ⟨"Select", by decide, Text.suffix_append _ _⟩
  | defaults =>
      exact ⟨"DefaultArgs", by decide, Text.suffix_append _ _⟩
  | countSelection =>
      exact ⟨"Select", by decide,
        List.IsSuffix.trans (by decide) (Text.suffix_append model.name "CountOutputTypeSelect")⟩
  | countArguments =>
      exact ⟨"DefaultArgs", by decide,
        List.IsSuffix.trans (by decide)
          (Text.suffix_append model.name "CountOutputTypeDefaultArgs")⟩

theorem ProjectionOf.slash_not_mem
    {context : Context}
    {model : Model}
    {composite : Composite}
    (projection : ProjectionOf context model composite)
    (plain : '/' ∉ model.name.toList) :
    '/' ∉ composite.name.toList := by
  have extended (ending : String) (endingPlain : '/' ∉ ending.toList) :
      '/' ∉ (model.name ++ ending).toList := by
    rw [String.toList_append, List.mem_append, not_or]
    exact ⟨plain, endingPlain⟩
  cases projection with
  | inclusion | selection | defaults | countSelection | countArguments =>
      exact extended _ (by decide)

/-- What a field of a projection of a model accepts, with what has to be emitted for it. -/
inductive ProjectionAlternative (context : Context) (model : Model) : TypeAlternative → Prop where
  | flag :
      ProjectionAlternative context model flagAlternative
  | bulkQuery
      {relation : ModelField}
      (related : relation ∈ model.relations)
      (many : relation.isList = true) :
      ProjectionAlternative context model (hostAlternative (relation.typeName ++ bulkQueryMark))
  | defaults
      {relation : ModelField}
      (related : relation ∈ model.relations)
      (one : relation.isList = false) :
      ProjectionAlternative context model
        (hostAlternative (defaultArgumentsName relation.typeName))
  | selection
      (emitted : context.emitsSelect = true) :
      ProjectionAlternative context model (hostAlternative (selectName model.name))
  | inclusion
      (emitted : context.emitsInclude = true)
      (related : model.hasRelation = true) :
      ProjectionAlternative context model (hostAlternative (includeName model.name))
  | countSelection
      (emitted : context.emitsSelect = true)
      (related : model.hasManyRelation = true) :
      ProjectionAlternative context model (hostAlternative (countSelectName model.name))
  | countArguments
      (emitted : context.emitsSelect = true)
      (related : model.hasManyRelation = true) :
      ProjectionAlternative context model (hostAlternative (countArgumentsName model.name))

/-- A field with a single flag accepts nothing else. -/
private theorem projectionAlternative_of_flag
    {context : Context}
    {model : Model}
    {name : String}
    {alternative : TypeAlternative}
    (member : alternative ∈ (optionalField name [flagAlternative]).alternatives) :
    ProjectionAlternative context model alternative :=
  List.mem_singleton.mp member ▸ .flag

/-- A relation accepts a flag, and a bulk query or the arguments of a nested projection. -/
private theorem projectionAlternative_of_relation
    {context : Context}
    {model : Model}
    {relation : ModelField}
    (related : relation ∈ model.relations)
    {alternative : TypeAlternative}
    (member : alternative ∈ (relationField relation).alternatives) :
    ProjectionAlternative context model alternative := by
  rcases List.mem_cons.mp member with isFlag | inRest
  · exact isFlag ▸ .flag
  · rw [List.mem_singleton.mp inRest]
    cases many : relation.isList with
    | true =>
        exact .bulkQuery related many
    | false =>
        exact .defaults related many

/-- The counts accept a flag, and the arguments of a projection of counts with selections. -/
private theorem projectionAlternative_of_counts
    {context : Context}
    {model : Model}
    {field : InputField}
    (fieldMember : field ∈ countFields context model)
    {alternative : TypeAlternative}
    (member : alternative ∈ field.alternatives) :
    ProjectionAlternative context model alternative := by
  unfold countFields at fieldMember
  split at fieldMember
  · rename_i related
    rw [List.mem_singleton.mp fieldMember] at member
    rcases List.mem_cons.mp member with isFlag | inRest
    · exact isFlag ▸ .flag
    · split at inRest
      · rename_i emitted
        exact List.mem_singleton.mp inRest ▸ .countArguments emitted related
      · contradiction
  · contradiction

/-- Every field of a projection accepts one of these alternatives. -/
theorem ProjectionOf.alternative
    {context : Context}
    {model : Model}
    {composite : Composite}
    (projection : ProjectionOf context model composite)
    {field : InputField}
    (fieldMember : field ∈ composite.fields)
    {alternative : TypeAlternative}
    (member : alternative ∈ field.alternatives) :
    ProjectionAlternative context model alternative := by
  cases projection with
  | inclusion =>
      rcases List.mem_append.mp fieldMember with inRelations | inCounts
      · obtain ⟨relation, related, rfl⟩ := List.mem_map.mp inRelations
        exact projectionAlternative_of_relation related member
      · exact projectionAlternative_of_counts inCounts member
  | selection =>
      rcases List.mem_append.mp fieldMember with inFields | inCounts
      · obtain ⟨modelField, listed, rfl⟩ := List.mem_map.mp inFields
        unfold selectField at member
        split at member
        · rename_i relates
          exact projectionAlternative_of_relation (List.mem_filter.mpr ⟨listed, relates⟩) member
        · exact projectionAlternative_of_flag member
      · exact projectionAlternative_of_counts inCounts member
  | defaults =>
      rcases List.mem_append.mp fieldMember with inSelect | inInclude
      · split at inSelect
        · rename_i emitted
          rw [List.mem_singleton.mp inSelect] at member
          exact List.mem_singleton.mp member ▸ .selection emitted
        · contradiction
      · split at inInclude
        · rename_i emitted
          rw [Bool.and_eq_true] at emitted
          rw [List.mem_singleton.mp inInclude] at member
          exact List.mem_singleton.mp member ▸ .inclusion emitted.1 emitted.2
        · contradiction
  | countSelection =>
      obtain ⟨relation, -, rfl⟩ := List.mem_map.mp fieldMember
      exact projectionAlternative_of_flag member
  | countArguments emitted related =>
      rw [List.mem_singleton.mp fieldMember] at member
      exact List.mem_singleton.mp member ▸ .countSelection emitted related

end ZodSchemas.Assembly
