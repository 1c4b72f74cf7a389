import ZodSchemas.Proofs.ExpressionNodes
import ZodSchemas.Proofs.Projections
import ZodSchemas.Proofs.StructuralChecks

namespace ZodSchemas

/-!
# Keys of objects

Each planned unit has at most one object, and the values of its fields contain
none.  The arguments of an operation have fixed names, and so have those of a
nested projection.  The keys of a selection or an inclusion are the names of
model fields, which the checks keep apart, and the name of the counts, which they
do not keep apart from them.  The keys of a declared composite are the names of
its fields, which no check compares.
-/

namespace Expr

/-- In every object the fields have names of their own. -/
def HasDistinctKeys (expr : Expr) : Prop :=
  expr.Everywhere fun node => node.fieldNames.Nodup

instance (expr : Expr) : Decidable expr.HasDistinctKeys :=
  inferInstanceAs (Decidable (∀ node ∈ expr.walk, node.fieldNames.Nodup))

/-- A node that is no object, or one without fields. -/
def HasNoFields (node : Expr) : Prop :=
  node.fieldNames = []

theorem hasNoFields_of_wrappers :
    HoldsOfWrappers HasNoFields :=
  ⟨fun _ _ => rfl, fun _ => rfl, fun _ => rfl, fun _ => rfl, fun _ => rfl⟩

/-- Where the values of fields contain no further fields, the keys of the object alone matter. -/
theorem hasDistinctKeys_object_iff
    {fields : List (String × Expr)}
    {strict : Bool}
    (flat : FieldsHave HasNoFields fields) :
    (Expr.object fields strict).HasDistinctKeys ↔ (fields.map Prod.fst).Nodup := by
  rw [HasDistinctKeys, everywhere_object]
  refine and_iff_left fun field member node inside => ?_
  have noNames : node.fieldNames = [] := flat field member node inside
  simp [noNames]

end Expr

namespace Assembly

open Metadata

/-- The names of the arguments that an operation may have. -/
def argumentNames : Operation → List String
  | .findUnique | .deleteOne => ["select", "include", "where"]
  | .findFirst | .findMany =>
      ["select", "include", "orderBy", "where", "cursor", "take", "skip", "distinct"]
  | .createOne => ["select", "include", "data"]
  | .createMany => ["data", "skipDuplicates"]
  | .deleteMany => ["where"]
  | .updateOne => ["select", "include", "data", "where"]
  | .updateMany => ["data", "where"]
  | .upsertOne => ["select", "include", "where", "create", "update"]
  | .aggregate =>
      ["orderBy", "where", "cursor", "take", "skip", "_count", "_min", "_max", "_avg", "_sum"]
  | .groupBy => ["where", "orderBy", "having", "take", "skip", "by"]

theorem nodup_argumentNames
    (operation : Operation) :
    (argumentNames operation).Nodup := by
  cases operation <;> decide

theorem projectionArguments_names
    (context : Context)
    (model : Model)
    (deferred : Bool) :
    ((projectionArguments context model deferred).map Prod.fst).Sublist ["select", "include"] := by
  have single (condition : Bool) (argument composite : String) :
      ((if condition then [projectionArgument deferred argument composite] else []).map
          Prod.fst).Sublist [argument] := by
    cases condition <;> simp [projectionArgument]
  rw [projectionArguments, List.map_append]
  exact (single _ "select" _).append (single _ "include" _)

theorem aggregateArguments_names
    (support : AggregateSupport)
    (model : Model) :
    ((aggregateArguments support model).map Prod.fst).Sublist
      ["_count", "_min", "_max", "_avg", "_sum"] := by
  have supported : (Aggregate.all.filter support.has).Sublist Aggregate.all :=
    List.filter_sublist
  rw [aggregateArguments, List.map_map]
  exact supported.map _

/-- The arguments of an operation are some of those that it may have, in their order. -/
theorem arguments_names
    (context : Context)
    (support : AggregateSupport)
    (model : Model)
    (operation : Operation) :
    ((arguments context support model operation).map Prod.fst).Sublist
      (argumentNames operation) := by
  have projections := projectionArguments_names context model
  have aggregates := aggregateArguments_names support model
  cases operation with
  | findUnique | deleteOne | createOne | updateOne | upsertOne | findFirst | findMany =>
      rw [arguments, List.map_append]
      exact (projections _).append (.refl _)
  | aggregate =>
      rw [arguments, List.map_append]
      exact (List.Sublist.refl ["orderBy", "where", "cursor", "take", "skip"]).append aggregates
  | createMany =>
      rw [arguments]
      split <;> simp [argumentNames]
  | deleteMany | updateMany | groupBy =>
      exact .refl _

/-- The object of an operation has distinct keys. -/
theorem hasDistinctKeys_arguments
    (context : Context)
    (support : AggregateSupport)
    (model : Model)
    (operation : Operation) :
    (Expr.object (arguments context support model operation) false).HasDistinctKeys := by
  rw [Expr.hasDistinctKeys_object_iff]
  · exact (nodup_argumentNames operation).sublist
      (arguments_names context support model operation)
  · exact fieldsHave_arguments Expr.hasNoFields_of_wrappers (fun _ => rfl) (fun _ => rfl) rfl
      context support operation

/-- The names of the fields of a composite that have an entry. -/
def keptNames (composite : Composite) : List String :=
  (composite.fields.filter fun field => field.alternatives.any isUsable).map (·.name)

theorem keptNames_sublist
    (composite : Composite) :
    (keptNames composite).Sublist (composite.fields.map (·.name)) :=
  List.filter_sublist.map _

/-- Where every field accepts a flag, every field has an entry. -/
theorem keptNames_eq_of_flags
    {composite : Composite}
    (flagged : ∀ field ∈ composite.fields, flagAlternative ∈ field.alternatives) :
    keptNames composite = composite.fields.map (·.name) := by
  have usable : ∀ field ∈ composite.fields, field.alternatives.any isUsable = true :=
    fun field member => List.any_eq_true.mpr ⟨flagAlternative, flagged field member, rfl⟩
  rw [keptNames, List.filter_eq_self.mpr usable]

theorem map_fst_compositeFields
    (context : Context)
    (composite : Composite) :
    (compositeFields context composite).map Prod.fst = keptNames composite := by
  have sameNames {field : InputField} {entry : String × Expr}
      (isEntry : fieldOf? context composite.name field = some entry) :
      field.name = entry.1 := by
    obtain ⟨validator, -, rfl⟩ := Option.map_eq_some_iff.mp isEntry
    rfl
  have inTurn :
      List.Forall₂ (· = ·) (keptNames composite)
        ((compositeFields context composite).map Prod.fst) := by
    rw [keptNames, List.forall₂_map_left_iff, List.forall₂_map_right_iff]
    exact (forall₂_compositeFields context composite.name composite.fields).imp
      fun _ _ isEntry => sameNames isEntry
  rw [List.forall₂_eq_eq_eq] at inTurn
  exact inTurn.symm

theorem BaseOf.everywhere_hasNoFields
    {context : Context}
    {owner : String}
    {alternative : TypeAlternative}
    {base : Expr}
    (isBase : BaseOf context owner alternative base) :
    base.Everywhere Expr.HasNoFields := by
  cases isBase <;> simp [Expr.HasNoFields, Expr.fieldNames]

/-- The object of a composite has distinct keys exactly when its fields with an entry have distinct
names. -/
theorem hasDistinctKeys_compositeFields_iff
    {context : Context}
    {composite : Composite} :
    (Expr.object (compositeFields context composite) true).HasDistinctKeys ↔
      (keptNames composite).Nodup := by
  rw [Expr.hasDistinctKeys_object_iff, map_fst_compositeFields]
  exact fieldsHave_compositeFields Expr.hasNoFields_of_wrappers
    fun _ _ _ _ _ isBase => isBase.everywhere_hasNoFields

/-- Names with the name of the counts behind them, where there are relations to many. -/
def withCounts (model : Model) (names : List String) : List String :=
  names ++ (if model.hasManyRelation then [countField] else [])

theorem nodup_withCounts_iff
    {model : Model}
    {names : List String}
    (apart : names.Nodup) :
    (withCounts model names).Nodup ↔ (model.hasManyRelation = true → countField ∉ names) := by
  unfold withCounts
  cases many : model.hasManyRelation with
  | true =>
      rw [if_pos rfl, ← List.concat_eq_append, List.nodup_concat]
      simp [apart]
  | false =>
      simpa using apart

theorem flag_mem_of_countFields
    (context : Context)
    (model : Model) :
    ∀ field ∈ countFields context model, flagAlternative ∈ field.alternatives := by
  unfold countFields
  split <;> simp [optionalField]

theorem map_name_countFields
    (context : Context)
    (model : Model) :
    (countFields context model).map (·.name) =
      if model.hasManyRelation then [countField] else [] := by
  unfold countFields
  split <;> rfl

theorem flag_mem_relationField
    (relation : ModelField) :
    flagAlternative ∈ (relationField relation).alternatives :=
  .head _

theorem flag_mem_selectField
    (field : ModelField) :
    flagAlternative ∈ (selectField field).alternatives := by
  unfold selectField
  split <;> exact .head _

theorem name_selectField
    (field : ModelField) :
    (selectField field).name = field.name := by
  unfold selectField
  split <;> rfl

/-- The keys of an inclusion are the relations of the model, and the counts. -/
theorem keptNames_includeComposite
    (context : Context)
    (model : Model) :
    keptNames (includeComposite context model) =
      withCounts model (model.relations.map (·.name)) := by
  rw [keptNames_eq_of_flags, includeComposite, List.map_append, List.map_map,
    map_name_countFields]
  · rfl
  · refine List.forall_mem_append.mpr ⟨?_, flag_mem_of_countFields context model⟩
    exact List.forall_mem_map.mpr fun relation _ => flag_mem_relationField relation

/-- The keys of a selection are the fields of the model, and the counts. -/
theorem keptNames_selectComposite
    (context : Context)
    (model : Model) :
    keptNames (selectComposite context model) =
      withCounts model (model.fields.map (·.name)) := by
  rw [keptNames_eq_of_flags, selectComposite, List.map_append, List.map_map,
    map_name_countFields]
  · simp only [Function.comp_def, name_selectField]
    rfl
  · refine List.forall_mem_append.mpr ⟨?_, flag_mem_of_countFields context model⟩
    exact List.forall_mem_map.mpr fun field _ => flag_mem_selectField field

/-- A composite is no selection or inclusion of a model that has a field with the name of its
counts. -/
structure CountsApart (context : Context) (model : Model) (composite : Composite) : Prop where
  inclusion :
    composite = includeComposite context model → model.hasManyRelation = true →
      countField ∉ model.relations.map (·.name)
  selection :
    composite = selectComposite context model → model.hasManyRelation = true →
      countField ∉ model.fields.map (·.name)

theorem nodup_map_name_relations
    {model : Model}
    (fieldsApart : (model.fields.map (·.name)).Nodup) :
    (model.relations.map (·.name)).Nodup :=
  fieldsApart.sublist (List.filter_sublist.map _)

/-- A projection of a model with distinct fields has distinct keys where its counts are apart. -/
theorem ProjectionOf.nodup_keptNames
    {context : Context}
    {model : Model}
    (fieldsApart : (model.fields.map (·.name)).Nodup)
    {composite : Composite}
    (countsApart : CountsApart context model composite)
    (projection : ProjectionOf context model composite) :
    (keptNames composite).Nodup := by
  cases projection with
  | inclusion =>
      rw [keptNames_includeComposite, nodup_withCounts_iff (nodup_map_name_relations fieldsApart)]
      exact countsApart.inclusion rfl
  | selection =>
      rw [keptNames_selectComposite, nodup_withCounts_iff fieldsApart]
      exact countsApart.selection rfl
  | defaults =>
      refine List.Nodup.sublist (keptNames_sublist _) ?_
      unfold defaultArgumentsComposite
      split <;> split <;> simp [optionalField]
  | countSelection =>
      refine List.Nodup.sublist (keptNames_sublist _) ?_
      rw [countSelectComposite, List.map_map]
      exact (nodup_map_name_relations fieldsApart).sublist (List.filter_sublist.map _)
  | countArguments =>
      exact List.Nodup.sublist (keptNames_sublist _) (List.nodup_singleton _)

/-- Keys of planned objects that the checks leave to chance: those of declared composites, and the
counts beside the fields of a model. -/
structure KeysApart (context : Context) (document : Document) : Prop where
  declared : ∀ composite ∈ document.composites, (keptNames composite).Nodup
  counts :
    ∀ model ∈ document.models, ∀ composite ∈ allComposites context document,
      CountsApart context model composite

/-- Where the fields of each model are distinct, all composites have distinct keys exactly when the
declared ones have and the counts are apart. -/
theorem forall_nodup_keptNames_iff
    {context : Context}
    {document : Document}
    (fieldsApart : ∀ model ∈ document.models, (model.fields.map (·.name)).Nodup) :
    (∀ composite ∈ allComposites context document, (keptNames composite).Nodup) ↔
      KeysApart context document := by
  constructor
  · intro apart
    refine ⟨fun composite declared => ?_, fun model isModel composite merged => ⟨?_, ?_⟩⟩
    · exact apart composite (mem_mergeComposites_of_declared declared)
    · rintro rfl
      rw [← nodup_withCounts_iff (nodup_map_name_relations (fieldsApart model isModel)),
        ← keptNames_includeComposite context]
      exact apart _ merged
    · rintro rfl
      rw [← nodup_withCounts_iff (fieldsApart model isModel), ← keptNames_selectComposite context]
      exact apart _ merged
  · intro keysApart composite merged
    rcases mem_or_mem_of_mem_mergeComposites merged with declared | derived
    · exact keysApart.declared composite declared
    · obtain ⟨model, isModel, projection⟩ := mem_projections derived
      exact projection.nodup_keptNames (fieldsApart model isModel)
        (keysApart.counts model isModel composite merged)

/-- In every object of every unit the fields have names of their own. -/
def HaveDistinctKeys (units : List SchemaUnit) : Prop :=
  ∀ unit ∈ units, ∀ expression, unit.expression = some expression → expression.HasDistinctKeys

/-- The objects of enumerations and operations have distinct keys in any case. -/
theorem haveDistinctKeys_plannedUnits_iff
    {context : Context}
    {document : Document} :
    HaveDistinctKeys (plannedUnits context document) ↔
      ∀ composite ∈ allComposites context document, (keptNames composite).Nodup := by
  constructor
  · intro distinct composite merged
    exact hasDistinctKeys_compositeFields_iff.mp
      (distinct _ (mem_plannedUnits.mpr (.composite merged)) _ rfl)
  · intro apart unit planned expression isExpression
    cases mem_plannedUnits.mp planned with
    | enumeration declared =>
        obtain rfl := Option.some.inj isExpression
        simp [Expr.HasDistinctKeys, Expr.fieldNames]
    | composite merged =>
        obtain rfl := Option.some.inj isExpression
        exact hasDistinctKeys_compositeFields_iff.mpr (apart _ merged)
    | operation first known supported =>
        obtain rfl := Option.some.inj isExpression
        exact hasDistinctKeys_arguments _ _ _ _

/-- The planner succeeds on a document without errors, and in all objects of the planned units the
keys are distinct exactly when no declared composite has two fields of one name with a validator and
no planned selection or inclusion has a field with the name of its counts. -/
theorem planned_haveDistinctKeys_iff_keysApart
    (settings : Settings)
    (document : Document)
    (noErrors : (Check.full settings document).hasErrors = false) :
    ∃ assembled,
      assemble (plan (.build settings document) document) = .ok assembled ∧
        assembled.failures = [] ∧
        (HaveDistinctKeys assembled.units ↔ KeysApart (.build settings document) document) := by
  have sound := Check.sound_of_full noErrors
  refine ⟨_, assemble_plan sound.firstMappedModelsKnown, rfl, ?_⟩
  rw [haveDistinctKeys_plannedUnits_iff,
    forall_nodup_keptNames_iff (Check.fieldNames_nodup_of_full noErrors)]

/-- A composite with two fields of one name. -/
def repeatedField : Document where
  provider := .postgresql
  previewFeatures := []
  models := []
  enums := []
  composites :=
    [⟨"NoteFilter",
      [⟨"id", true, false, [⟨"Int", false, .scalar, none⟩]⟩,
        ⟨"id", false, false, [⟨"String", false, .scalar, none⟩]⟩]⟩]
  mappings := []
  aggregateSupport := none

theorem planned_haveDistinctKeys_iff_repeatedField :
    (Check.full .default repeatedField).hasErrors = false ∧
      ∃ assembled,
        assemble (plan (.build .default repeatedField) repeatedField) = .ok assembled ∧
          assembled.failures = [] ∧
          (HaveDistinctKeys assembled.units ↔
            KeysApart (.build .default repeatedField) repeatedField) := by
  have noErrors : (Check.full .default repeatedField).hasErrors = false := by
    decide +kernel
  exact ⟨noErrors, planned_haveDistinctKeys_iff_keysApart .default repeatedField noErrors⟩

/-- Nothing is found in the document, and the planned object has the same key twice. -/
theorem not_haveDistinctKeys_repeatedField :
    Check.full .default repeatedField = [] ∧
      ∃ assembled,
        assemble (plan (.build .default repeatedField) repeatedField) = .ok assembled ∧
          assembled.failures = [] ∧
          ∃ unit ∈ assembled.units, ∃ expression,
            unit.expression = some expression ∧
              expression.fieldNames = ["id", "id"] ∧ ¬ expression.HasDistinctKeys := by
  have noErrors : (Check.metadata repeatedField).hasErrors = false := by
    decide +kernel
  refine ⟨by decide +kernel, _,
    assemble_plan (Check.sound_of_metadata noErrors).firstMappedModelsKnown, rfl, ?_⟩
  refine ⟨_, mem_plannedUnits.mpr (.composite (mem_mergeComposites_of_declared (.head _))), _,
    rfl, by decide +kernel, ?_⟩
  decide +kernel

end Assembly

end ZodSchemas
