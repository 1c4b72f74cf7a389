import ZodSchemas.Proofs.ContextFrames
import ZodSchemas.Proofs.DerivedTables

namespace ZodSchemas

/-!
# Plans depend on sets of operations

A mapping lists operations, but only which ones it lists counts.  Operations are
planned in the order of the vocabulary, and composites are renamed after all raw
operations together.  So a document has the same plan and compiles to the same
modules if mappings of the same models with the same operations replace its own.
-/

open Metadata

namespace Metadata

/-- Two mappings have the same operations, in whatever order and however often, on one model. -/
structure OperationMapping.SameSets (first second : OperationMapping) : Prop where
  model : second.model = first.model
  operations : ∀ operation, operation ∈ second.operations ↔ operation ∈ first.operations
  rawOperations : ∀ name, name ∈ second.rawOperations ↔ name ∈ first.rawOperations

theorem OperationMapping.SameSets.refl
    (mapping : OperationMapping) :
    mapping.SameSets mapping :=
  ⟨rfl, fun _ => .rfl, fun _ => .rfl⟩

theorem forall₂_sameSets_refl
    (mappings : List OperationMapping) :
    List.Forall₂ OperationMapping.SameSets mappings mappings :=
  List.forall₂_same.mpr fun mapping _ => .refl mapping

/-- What related members have in common holds of a member of both lists or of neither. -/
theorem exists_mem_congr_of_forall₂
    {related : α → β → Prop}
    {items : List α}
    {others : List β}
    (each : List.Forall₂ related items others)
    {holds : α → Prop}
    {alsoHolds : β → Prop}
    (congr : ∀ item other, related item other → (alsoHolds other ↔ holds item)) :
    (∃ other ∈ others, alsoHolds other) ↔ ∃ item ∈ items, holds item := by
  induction each with
  | nil =>
      simp
  | cons atHead _ inductionHypothesis =>
      simp only [List.exists_mem_cons_iff, congr _ _ atHead, inductionHypothesis]

end Metadata

namespace Assembly

/-- What two documents are planned and compiled to is the same. -/
structure PlannedAlike (settings : Settings) (first second : Document) : Prop where
  plans : plan (.build settings second) second = plan (.build settings first) first
  names :
    compositeUnitName (.build settings second) = compositeUnitName (.build settings first)
  files :
    ∀ workingDirectory,
      compile workingDirectory settings second = compile workingDirectory settings first

section SameSets

variable {document : Document} {mappings : List OperationMapping}
  (same : List.Forall₂ OperationMapping.SameSets document.mappings mappings)

theorem mappedOperations_congr
    {first second : OperationMapping}
    (same : first.SameSets second) :
    mappedOperations second = mappedOperations first := by
  refine List.filter_congr fun operation _ => ?_
  rw [OperationMapping.supports, OperationMapping.supports, Bool.eq_iff_iff,
    List.contains_iff_mem, List.contains_iff_mem, same.operations]

/-- Which mappings are the first ones of their models depends on the models only. -/
theorem forall₂_firstMappings
    {first second : List OperationMapping}
    (same : List.Forall₂ OperationMapping.SameSets first second) :
    List.Forall₂ OperationMapping.SameSets (firstMappings first) (firstMappings second) := by
  induction same with
  | nil =>
      exact .nil
  | cons atHead _ inductionHypothesis =>
      refine .cons atHead (List.rel_filter (fun mapping other atMapping => ?_) inductionHypothesis)
      simp only [atMapping.model, atHead.model]

include same

theorem mem_rawEntries_iff_of_sameSets
    (entry : String × String) :
    entry ∈ rawEntries mappings ↔ entry ∈ rawEntries document.mappings := by
  rw [mem_rawEntries, mem_rawEntries]
  refine exists_mem_congr_of_forall₂ same fun lister other atLister => ?_
  simp only [atLister.rawOperations]
  refine exists_congr fun operation => and_congr_right fun _ => ?_
  exact exists_mem_congr_of_forall₂ same fun mapping other atMapping => by rw [atMapping.model]

variable (known : ListsKnownRawOperations document.mappings) (settings : Settings)

include known

theorem alike_of_sameSets :
    (Context.build settings document).Alike
      (.build settings { document with mappings := mappings }) where
  isEnum _ := rfl
  rawOperation? name := by
    have sameTable :=
      lookup_rawOperationTable_congr known (mem_rawEntries_iff_of_sameSets same) name
    simp only [Context.rawOperation?, Context.build]
    by_cases renames : document.provider = .mongodb
    · rw [if_pos renames, if_pos renames, sameTable]
    · rw [if_neg renames, if_neg renames]
  others := rfl

theorem operationTask_congr
    (model : String) :
    operationTask (.build settings { document with mappings := mappings })
        { document with mappings := mappings } model =
      operationTask (.build settings document) document model := by
  funext operation
  have sameUnit (found : Model) :
      operationUnit (.build settings { document with mappings := mappings })
          { document with mappings := mappings } found operation =
        operationUnit (.build settings document) document found operation := by
    rw [operationUnit_congr (alike_of_sameSets same known settings)]
    rfl
  simp only [operationTask, operationOutcome, sameUnit]
  rfl

/-- The plan of a document is made from the operations that each mapping has. -/
theorem plan_of_sameSets :
    plan (.build settings { document with mappings := mappings })
        { document with mappings := mappings } =
      plan (.build settings document) document := by
  have alike := alike_of_sameSets same known settings
  have sameTasks :
      List.Forall₂ (· = ·)
        ((firstMappings document.mappings).flatMap
          (mappingTasks (.build settings document) document))
        ((firstMappings mappings).flatMap
          (mappingTasks (.build settings { document with mappings := mappings })
            { document with mappings := mappings })) := by
    refine List.rel_flatMap (forall₂_firstMappings same) fun mapping other atMapping => ?_
    rw [List.forall₂_eq_eq_eq, mappingTasks, mappingTasks, mappedOperations_congr atMapping,
      atMapping.model, operationTask_congr same known]
  rw [List.forall₂_eq_eq_eq] at sameTasks
  have sameComposites :
      compositeTask (.build settings { document with mappings := mappings }) =
        compositeTask (.build settings document) :=
    funext fun composite => by rw [compositeTask, compositeTask, compositeUnit_congr alike]
  rw [plan, plan, allComposites, allComposites, projections_congr alike, sameComposites,
    sameTasks]

/-- Documents with the same operations on the same models are planned and compiled to the same. -/
theorem plannedAlike_of_sameSets :
    PlannedAlike settings document { document with mappings := mappings } where
  plans := plan_of_sameSets same known settings
  names := funext (compositeUnitName_congr (alike_of_sameSets same known settings))
  files workingDirectory := by
    rw [compile, compile, plan_of_sameSets same known]
    rfl

end SameSets

end Assembly

end ZodSchemas
