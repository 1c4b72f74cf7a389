import Mathlib.Logic.Relation
import ZodSchemas.Assembly.HostType
import ZodSchemas.Proofs.EagerReferences
import ZodSchemas.Proofs.PlannedUnits

namespace ZodSchemas.Assembly

/-!
# Order of evaluation

A module is evaluated after the modules that it refers to eagerly.  Models that
relate to each other make the references between units cyclic.  The eager ones
among them go down in five ranks, from operations over composites, bulk queries
and the composites of a search to enumerations, as long as the composites of the
host are deferred and those of a search take no bulk query.
-/

open Metadata

/-- A planned unit refers eagerly to another one. -/
def RefersEagerly (context : Context) (document : Document) (source target : SchemaUnit) :
    Prop :=
  source ∈ plannedUnits context document ∧
    target ∈ plannedUnits context document ∧
    ∃ reference ∈ source.eagerReferences, target.asReference? = some reference

/-- Every composite that a declared composite refers to is one of the host. -/
def DefersComposites (context : Context) (document : Document) : Prop :=
  ∀ composite ∈ document.composites, ∀ field ∈ composite.fields,
    ∀ alternative ∈ field.alternatives,
      referenceKind? context alternative = some .object →
        alternative.origin = some hostOrigin

/-- No declared composite of a search takes a bulk query. -/
def SearchesWithoutQueries (context : Context) (document : Document) : Prop :=
  ∀ composite ∈ document.composites,
    endsIn searchEndings composite.name.toList = true →
      ∀ field ∈ composite.fields, ∀ alternative ∈ field.alternatives,
        referenceKind? context alternative ≠ some .operation

/-- The rank of what a reference leads to. -/
def evaluationRank (reference : Reference) : Nat :=
  match reference.kind with
  | .enumeration => 0
  | .object => if endsIn searchEndings reference.name.toList then 1 else 3
  | .operation => if Operation.findMany.verb.toList.isSuffixOf reference.name.toList then 2 else 4

theorem endsIn_iff
    {endings : List String}
    {name : List Char} :
    endsIn endings name = true ↔ ∃ ending ∈ endings, ending.toList <:+ name := by
  simp only [endsIn, List.any_eq_true, List.isSuffixOf_iff_suffix]

/-- Endings of which none ends in another one are not shared. -/
theorem not_endsIn_of_ending
    {endings : List String}
    {name ending : String}
    (apart : ∀ other ∈ endings,
      ¬ (other.toList <:+ ending.toList ∨ ending.toList <:+ other.toList))
    (ends : ending.toList <:+ name.toList) :
    endsIn endings name.toList = false := by
  rw [Bool.eq_false_iff]
  intro listed
  obtain ⟨other, member, endsOther⟩ := endsIn_iff.mp listed
  exact apart other member (Text.endings_comparable endsOther ends)

theorem evaluationRank_findMany
    (model : String) :
    evaluationRank ⟨operationUnitName model .findMany, .operation⟩ = 2 := by
  have ends := Text.suffix_append (Text.capitalizeFirst model) Operation.findMany.verb
  exact if_pos (List.isSuffixOf_iff_suffix.mpr ends)

theorem evaluationRank_operation
    {operation : Operation}
    (other : operation ≠ .findMany)
    (model : String) :
    evaluationRank ⟨operationUnitName model operation, .operation⟩ = 4 := by
  refine if_neg fun ends => other ?_
  exact (operation_eq_of_verb_ending (List.isSuffixOf_iff_suffix.mp ends)).symm

/-- What is no operation stands below all of them but bulk queries. -/
theorem evaluationRank_lt_of_ne_operation
    {reference : Reference}
    (other : reference.kind ≠ .operation) :
    evaluationRank reference < 4 := by
  unfold evaluationRank
  cases kind : reference.kind with
  | enumeration =>
      exact Nat.zero_lt_succ _
  | object =>
      dsimp only
      split <;> decide
  | operation =>
      exact absurd kind other

theorem SearchReference.evaluationRank_lt
    {model : String}
    {reference : Reference}
    (search : SearchReference model reference) :
    evaluationRank reference < 2 := by
  cases search with
  | composite listed =>
      have ends := endsIn_iff.mpr ⟨_, listed, Text.suffix_append model _⟩
      simp only [evaluationRank, ends, ↓reduceIte]
      decide
  | enumeration name =>
      exact Nat.zero_lt_succ _

theorem evaluationRank_object_pos
    (name : String) :
    0 < evaluationRank ⟨name, .object⟩ := by
  simp only [evaluationRank]
  split <;> decide

private theorem searchEndings_apart_rawUnitEndings :
    ∀ ending ∈ searchEndings, ∀ raw ∈ rawUnitEndings,
      ¬ (raw.toList <:+ ending.toList ∨ ending.toList <:+ raw.toList) := by
  decide

private theorem projectionEndings_apart_searchEndings :
    ∀ ending ∈ projectionEndings, ∀ other ∈ searchEndings,
      ¬ (other.toList <:+ ending.toList ∨ ending.toList <:+ other.toList) := by
  decide

/-- A unit of a search is a composite of that name. -/
theorem endsIn_of_endsIn_compositeUnitName
    {settings : Settings}
    {document : Document}
    {name : String}
    (search :
      endsIn searchEndings
        (compositeUnitName (Context.build settings document) name).toList = true) :
    endsIn searchEndings name.toList = true := by
  obtain ⟨ending, listed, ends⟩ := endsIn_iff.mp search
  rwa [compositeUnitName_eq_self_of_ending
    (searchEndings_apart_rawUnitEndings ending listed) ends] at search

theorem declared_or_projection
    {context : Context}
    {document : Document}
    {composite : Composite}
    (merged : composite ∈ allComposites context document) :
    composite ∈ document.composites ∨
      ∃ model ∈ document.models, ProjectionOf context model composite :=
  (mem_or_mem_of_mem_mergeComposites merged).imp_right mem_projections

/-- No composite is referred to eagerly. -/
theorem isDeferred_of_composite
    {context : Context}
    {document : Document}
    (deferred : DefersComposites context document)
    {composite : Composite}
    (merged : composite ∈ allComposites context document)
    {field : InputField}
    (fieldMember : field ∈ composite.fields)
    {alternative : TypeAlternative}
    (member : alternative ∈ field.alternatives)
    (kind : referenceKind? context alternative = some .object) :
    isDeferred composite.name alternative = true := by
  have fromHost : alternative.origin = some hostOrigin := by
    rcases declared_or_projection merged with declared | ⟨model, -, projection⟩
    · exact deferred composite declared field fieldMember alternative member kind
    · cases projection.alternative fieldMember member with
      | flag =>
          contradiction
      | bulkQuery | defaults | selection | inclusion | countSelection | countArguments =>
          rfl
  simp [isDeferred, fromHost]

/-- No composite of a search takes a bulk query. -/
theorem not_endsIn_of_bulkQuery
    {settings : Settings}
    {document : Document}
    (searches : SearchesWithoutQueries (Context.build settings document) document)
    {composite : Composite}
    (merged : composite ∈ allComposites (Context.build settings document) document)
    {field : InputField}
    (fieldMember : field ∈ composite.fields)
    {alternative : TypeAlternative}
    (member : alternative ∈ field.alternatives)
    (kind : referenceKind? (Context.build settings document) alternative = some .operation) :
    endsIn searchEndings
      (compositeUnitName (Context.build settings document) composite.name).toList = false := by
  rw [Bool.eq_false_iff]
  intro search
  have ofSearch := endsIn_of_endsIn_compositeUnitName search
  rcases declared_or_projection merged with declared | ⟨model, -, projection⟩
  · exact searches composite declared ofSearch field fieldMember alternative member kind
  · obtain ⟨ending, listed, ends⟩ := projection.exists_ending
    rw [not_endsIn_of_ending (projectionEndings_apart_searchEndings ending listed) ends]
      at ofSearch
    contradiction

theorem evaluationRank_lt_of_composite
    {settings : Settings}
    {document : Document}
    (deferred : DefersComposites (Context.build settings document) document)
    (searches : SearchesWithoutQueries (Context.build settings document) document)
    {composite : Composite}
    (merged : composite ∈ allComposites (Context.build settings document) document)
    {reference : Reference}
    (eager :
      reference ∈
        (compositeUnit (Context.build settings document) composite).eagerReferences) :
    evaluationRank reference <
      evaluationRank
        ⟨compositeUnitName (Context.build settings document) composite.name, .object⟩ := by
  obtain ⟨field, fieldMember, alternative, member, refers⟩ := exists_alternative_of_eager eager
  cases refers with
  | enumeration kind =>
      exact evaluationRank_object_pos _
  | bulkQuery model kind =>
      have noSearch := not_endsIn_of_bulkQuery searches merged fieldMember member kind
      rw [evaluationRank_findMany]
      simp [evaluationRank, noSearch]
  | composite kind prompt =>
      rw [isDeferred_of_composite deferred merged fieldMember member kind] at prompt
      contradiction

theorem evaluationRank_lt_of_operation
    {context : Context}
    {document : Document}
    {model : Model}
    {operation : Operation}
    {reference : Reference}
    (eager :
      reference ∈ (operationUnit context document model operation).eagerReferences) :
    evaluationRank reference <
      evaluationRank ⟨operationUnitName model.name operation, .operation⟩ := by
  by_cases isBulkQuery : operation = .findMany
  · subst operation
    rw [evaluationRank_findMany]
    exact (searchReference_of_bulkQuery eager).evaluationRank_lt
  · rw [evaluationRank_operation isBulkQuery]
    exact evaluationRank_lt_of_ne_operation (kind_ne_operation_of_eager eager)

/-- Every eager reference leads to a unit of a lower rank. -/
theorem evaluationRank_lt_of_refersEagerly
    {settings : Settings}
    {document : Document}
    (deferred : DefersComposites (Context.build settings document) document)
    (searches : SearchesWithoutQueries (Context.build settings document) document)
    {source target : SchemaUnit}
    (edge : RefersEagerly (Context.build settings document) document source target) :
    ∃ reference referred,
      source.asReference? = some reference ∧ target.asReference? = some referred ∧
        evaluationRank referred < evaluationRank reference := by
  obtain ⟨planned, -, referred, eager, answers⟩ := edge
  cases mem_plannedUnits.mp planned with
  | enumeration declared =>
      rw [eagerReferences_enumUnit] at eager
      contradiction
  | composite merged =>
      exact ⟨_, referred, asReference?_compositeUnit _ _, answers,
        evaluationRank_lt_of_composite deferred searches merged eager⟩
  | operation first known supported =>
      exact ⟨_, referred, asReference?_operationUnit _ _ _ _, answers,
        evaluationRank_lt_of_operation eager⟩

/-- Every path of eager references leads down. -/
theorem evaluationRank_lt_of_path
    {settings : Settings}
    {document : Document}
    (deferred : DefersComposites (Context.build settings document) document)
    (searches : SearchesWithoutQueries (Context.build settings document) document)
    {source target : SchemaUnit}
    (path :
      Relation.TransGen (RefersEagerly (Context.build settings document) document)
        source target) :
    ∃ reference referred,
      source.asReference? = some reference ∧ target.asReference? = some referred ∧
        evaluationRank referred < evaluationRank reference := by
  induction path with
  | single edge =>
      exact evaluationRank_lt_of_refersEagerly deferred searches edge
  | tail path edge inductionHypothesis =>
      obtain ⟨reference, between, answers, answersBetween, lower⟩ := inductionHypothesis
      obtain ⟨again, referred, answersAgain, answersLast, lowest⟩ :=
        evaluationRank_lt_of_refersEagerly deferred searches edge
      obtain rfl : between = again := by
        rw [answersBetween] at answersAgain
        exact Option.some.inj answersAgain
      exact ⟨reference, referred, answers, answersLast, Nat.lt_trans lowest lower⟩

/-- No planned unit has to be evaluated before itself. -/
theorem no_evaluation_cycle
    (settings : Settings)
    (document : Document)
    (deferred : DefersComposites (Context.build settings document) document)
    (searches : SearchesWithoutQueries (Context.build settings document) document)
    (unit : SchemaUnit) :
    ¬ Relation.TransGen (RefersEagerly (Context.build settings document) document)
      unit unit := by
  intro cycle
  obtain ⟨reference, referred, answers, answersAgain, lower⟩ :=
    evaluationRank_lt_of_path deferred searches cycle
  obtain rfl : reference = referred := by
    rw [answers] at answersAgain
    exact Option.some.inj answersAgain
  exact Nat.lt_irrefl _ lower

/-- A user with posts and a manager, whose conditions refer to each other. -/
def relatedModels : Document where
  provider := .postgresql
  previewFeatures := []
  models :=
    [⟨"User",
        [⟨"posts", .object, "Post", true, true⟩, ⟨"manager", .object, "User", false, false⟩]⟩,
      ⟨"Post", [⟨"author", .object, "User", false, true⟩]⟩]
  enums := [⟨"UserScalarFieldEnum", ["id"]⟩, ⟨"PostScalarFieldEnum", ["id"]⟩]
  composites :=
    [⟨"UserWhereInput",
        [⟨"posts", false, false, [⟨"PostWhereInput", false, .inputObjectTypes, some hostOrigin⟩]⟩,
          ⟨"manager", false, true,
            [⟨"UserWhereInput", false, .inputObjectTypes, some hostOrigin⟩]⟩]⟩,
      ⟨"PostWhereInput",
        [⟨"author", false, false,
          [⟨"UserWhereInput", false, .inputObjectTypes, some hostOrigin⟩]⟩]⟩,
      ⟨"UserPosts",
        [⟨"posts", false, false,
          [⟨"PostFindManyArgs", false, .inputObjectTypes, some hostOrigin⟩]⟩]⟩]
  mappings := [⟨"User", [.findUnique, .findMany], []⟩, ⟨"Post", [.findMany], []⟩]
  aggregateSupport := none

/-- Settings that emit all projections. -/
def allProjections : Settings :=
  { Settings.default with emitsSelect := true, emitsInclude := true }

theorem no_evaluation_cycle_relatedModels :
    DefersComposites (.build allProjections relatedModels) relatedModels ∧
      SearchesWithoutQueries (.build allProjections relatedModels) relatedModels ∧
      ∀ unit,
        ¬ Relation.TransGen (RefersEagerly (.build allProjections relatedModels) relatedModels)
          unit unit := by
  have deferred : DefersComposites (.build allProjections relatedModels) relatedModels := by
    unfold DefersComposites
    decide
  have searches :
      SearchesWithoutQueries (.build allProjections relatedModels) relatedModels := by
    unfold SearchesWithoutQueries
    decide
  exact ⟨deferred, searches,
    no_evaluation_cycle allProjections relatedModels deferred searches⟩

end ZodSchemas.Assembly
