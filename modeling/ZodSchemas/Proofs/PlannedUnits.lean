import ZodSchemas.Check.Reference
import ZodSchemas.Proofs.UnitNames

namespace ZodSchemas

/-!
# The units of a plan

A plan yields one unit for each enumeration, each composite and each operation
of the first mapping of each known model, in this order.  A unit answers to one
reference, which has its name and the kind that belongs to it.
-/

open Metadata

namespace SchemaUnit

/-- The reference that a unit answers to; nothing refers to the index. -/
def asReference? (unit : SchemaUnit) : Option Reference :=
  match unit.kind with
  | .object => some ⟨unit.name, .object⟩
  | .enumeration => some ⟨unit.name, .enumeration⟩
  | .operation => some ⟨unit.name, .operation⟩
  | .index => none

/-- The references that occur in a unit, the one to itself included. -/
def occurring (unit : SchemaUnit) : List Reference :=
  unit.expression.elim [] Expr.references

theorem exportName_of_asReference
    {unit : SchemaUnit}
    {reference : Reference}
    (answers : unit.asReference? = some reference) :
    unit.exportName = reference.symbol := by
  obtain ⟨kind, name, expression, hostType, members⟩ := unit
  cases kind <;> cases answers <;> rfl

/-- A unit stands where the reference that it answers to leads. -/
theorem path_of_asReference
    {unit : SchemaUnit}
    {reference : Reference}
    (answers : unit.asReference? = some reference) :
    unit.path = reference.stem ++ ".ts" := by
  obtain ⟨kind, name, expression, hostType, members⟩ := unit
  cases kind <;> cases answers <;> rfl

end SchemaUnit

namespace Assembly

@[simp] theorem asReference?_enumUnit
    (enumType : EnumType) :
    (enumUnit enumType).asReference? = some ⟨enumType.name, .enumeration⟩ :=
  rfl

@[simp] theorem asReference?_compositeUnit
    (context : Context)
    (composite : Composite) :
    (compositeUnit context composite).asReference? =
      some ⟨compositeUnitName context composite.name, .object⟩ := by
  have sameName :
      (compositeNames context composite.name).1 =
        compositeUnitName context composite.name := by
    unfold compositeNames compositeUnitName
    cases context.rawOperation? composite.name with
    | none =>
        simp only
        split <;> rfl
    | some arguments =>
        rfl
  rw [← sameName]
  rfl

@[simp] theorem asReference?_operationUnit
    (context : Context)
    (document : Document)
    (model : Model)
    (operation : Operation) :
    (operationUnit context document model operation).asReference? =
      some ⟨operationUnitName model.name operation, .operation⟩ :=
  rfl

/-- The units that the tasks of a plan yield, in order. -/
def plannedUnits (context : Context) (document : Document) : List SchemaUnit :=
  (plan context document).filterMap fun task => task.outcome.toOption

theorem plannedUnits_eq
    (context : Context)
    (document : Document) :
    plannedUnits context document =
      document.enums.map enumUnit
        ++ (allComposites context document).map (compositeUnit context)
        ++ (firstMappings document.mappings).flatMap (Check.mappingUnits context document) := by
  have enumerations :
      (document.enums.map enumTask).filterMap (fun task => task.outcome.toOption) =
        document.enums.map enumUnit := by
    rw [List.filterMap_map]
    exact congrFun List.filterMap_eq_map _
  have composites (items : List Composite) :
      (items.map (compositeTask context)).filterMap (fun task => task.outcome.toOption) =
        items.map (compositeUnit context) := by
    rw [List.filterMap_map]
    exact congrFun List.filterMap_eq_map _
  have operations (mapping : OperationMapping) :
      (mappingTasks context document mapping).filterMap (fun task => task.outcome.toOption) =
        Check.mappingUnits context document mapping := by
    unfold mappingTasks Check.mappingUnits
    rw [List.filterMap_map]
    cases known : document.model? mapping.model with
    | none =>
        simp [operationTask, operationOutcome, known, Function.comp_def, Except.toOption]
    | some model =>
        simp [operationTask, operationOutcome, known, Function.comp_def, Except.toOption]
  rw [plannedUnits, plan, List.filterMap_append, List.filterMap_append, enumerations,
    composites, List.filterMap_flatMap]
  simp only [operations]

/-- Tasks of which none fails yield their units. -/
theorem assemble_of_all_ok
    {tasks : List Task}
    (succeed : ∀ task ∈ tasks, ∃ unit, task.outcome = .ok unit) :
    assemble tasks = .ok ⟨tasks.filterMap fun task => task.outcome.toOption, []⟩ := by
  induction tasks with
  | nil =>
      rfl
  | cons task rest inductionHypothesis =>
      rw [List.forall_mem_cons] at succeed
      obtain ⟨⟨unit, outcome⟩, restSucceed⟩ := succeed
      rw [assemble, inductionHypothesis restSucceed, List.filterMap_cons, outcome]
      rfl

/-- The first mapping of each model finds it, unless it lists no operation. -/
def UsedModelsKnown (document : Document) : Prop :=
  ∀ mapping ∈ firstMappings document.mappings, mapping.operations ≠ [] →
    ∃ model, document.model? mapping.model = some model

/-- Where every used model is known, no task of the plan fails. -/
theorem assemble_plan_of_usedModelsKnown
    {context : Context}
    {document : Document}
    (known : UsedModelsKnown document) :
    assemble (plan context document) = .ok ⟨plannedUnits context document, []⟩ := by
  apply assemble_of_all_ok
  intro task member
  rw [plan, List.mem_append, List.mem_append, List.mem_flatMap] at member
  rcases member with (inEnums | inComposites) | ⟨mapping, first, inMapping⟩
  · obtain ⟨enumType, -, rfl⟩ := List.mem_map.mp inEnums
    exact ⟨_, rfl⟩
  · obtain ⟨composite, -, rfl⟩ := List.mem_map.mp inComposites
    exact ⟨_, rfl⟩
  · obtain ⟨operation, mapped, rfl⟩ := List.mem_map.mp inMapping
    have supported : mapping.supports operation = true := (List.mem_filter.mp mapped).2
    have used : mapping.operations ≠ [] := List.ne_nil_of_mem (List.contains_iff_mem.mp supported)
    obtain ⟨model, found⟩ := known mapping first used
    exact ⟨operationUnit context document model operation,
      by rw [operationTask, operationOutcome, found]⟩

/-- Where every mapped model is known, no task of the plan fails. -/
theorem assemble_plan
    {context : Context}
    {document : Document}
    (known :
      ∀ mapping ∈ firstMappings document.mappings,
        ∃ model, document.model? mapping.model = some model) :
    assemble (plan context document) = .ok ⟨plannedUnits context document, []⟩ :=
  assemble_plan_of_usedModelsKnown fun mapping first _ => known mapping first

/-- A unit of a mapping is the unit of one of its operations on its model. -/
theorem mem_mappingUnits
    {context : Context}
    {document : Document}
    {mapping : OperationMapping}
    {unit : SchemaUnit} :
    unit ∈ Check.mappingUnits context document mapping ↔
      ∃ model, document.model? mapping.model = some model ∧
        ∃ operation, mapping.supports operation = true ∧
          operationUnit context document model operation = unit := by
  unfold Check.mappingUnits mappedOperations
  cases known : document.model? mapping.model with
  | none =>
      simp
  | some model =>
      simp

theorem model?_eq_some
    {document : Document}
    {name : String}
    {model : Model}
    (found : document.model? name = some model) :
    model.name = name ∧ model ∈ document.models :=
  ⟨by simpa using List.find?_some found, List.mem_of_find?_eq_some found⟩

/-- What a planned unit is made of. -/
inductive PlannedFrom (context : Context) (document : Document) : SchemaUnit → Prop where
  | enumeration
      {enumType : EnumType}
      (declared : enumType ∈ document.enums) :
      PlannedFrom context document (enumUnit enumType)
  | composite
      {composite : Composite}
      (merged : composite ∈ allComposites context document) :
      PlannedFrom context document (compositeUnit context composite)
  | operation
      {mapping : OperationMapping}
      {model : Model}
      {operation : Operation}
      (first : mapping ∈ firstMappings document.mappings)
      (known : document.model? mapping.model = some model)
      (supported : mapping.supports operation = true) :
      PlannedFrom context document (operationUnit context document model operation)

/-- The planned units are those made of an enumeration, a composite or an operation. -/
theorem mem_plannedUnits
    {context : Context}
    {document : Document}
    {unit : SchemaUnit} :
    unit ∈ plannedUnits context document ↔ PlannedFrom context document unit := by
  rw [plannedUnits_eq, List.mem_append, List.mem_append, List.mem_map, List.mem_map,
    List.mem_flatMap]
  constructor
  · rintro ((⟨enumType, declared, rfl⟩ | ⟨composite, merged, rfl⟩) | ⟨mapping, first, member⟩)
    · exact .enumeration declared
    · exact .composite merged
    · obtain ⟨model, known, operation, supported, rfl⟩ := mem_mappingUnits.mp member
      exact .operation first known supported
  · intro origin
    cases origin with
    | enumeration declared =>
        exact .inl (.inl ⟨_, declared, rfl⟩)
    | composite merged =>
        exact .inl (.inr ⟨_, merged, rfl⟩)
    | operation first known supported =>
        exact .inr ⟨_, first, mem_mappingUnits.mpr ⟨_, known, _, supported, rfl⟩⟩

theorem mem_of_mem_firstMappings
    {mappings : List OperationMapping}
    {mapping : OperationMapping}
    (member : mapping ∈ firstMappings mappings) :
    mapping ∈ mappings := by
  induction mappings with
  | nil =>
      exact member
  | cons head rest inductionHypothesis =>
      rw [firstMappings, List.mem_cons, List.mem_filter] at member
      rcases member with atHead | ⟨inRest, -⟩
      · exact atHead ▸ .head _
      · exact .tail _ (inductionHypothesis inRest)

/-- Each model has at most one first mapping. -/
theorem nodup_firstMappings
    (mappings : List OperationMapping) :
    ((firstMappings mappings).map (·.model)).Nodup := by
  induction mappings with
  | nil =>
      exact .nil
  | cons head rest inductionHypothesis =>
      rw [firstMappings, List.map_cons, List.nodup_cons]
      refine ⟨?_, inductionHypothesis.sublist (List.filter_sublist.map _)⟩
      intro member
      obtain ⟨mapping, inFilter, same⟩ := List.mem_map.mp member
      simpa [same] using (List.mem_filter.mp inFilter).2

/-- Mappings of different models are all first mappings. -/
theorem firstMappings_eq_self
    {mappings : List OperationMapping}
    (noDuplicates : (mappings.map (·.model)).Nodup) :
    firstMappings mappings = mappings := by
  induction mappings with
  | nil =>
      rfl
  | cons head rest inductionHypothesis =>
      rw [List.map_cons, List.nodup_cons] at noDuplicates
      rw [firstMappings, inductionHypothesis noDuplicates.2]
      congr 1
      rw [List.filter_eq_self]
      intro mapping member
      have different : mapping.model ≠ head.model := fun same =>
        noDuplicates.1 (List.mem_map.mpr ⟨mapping, member, same⟩)
      simpa using different

/-- Merging invents no composite. -/
theorem mem_or_mem_of_mem_mergeComposites
    {declared derived : List Composite}
    {composite : Composite}
    (member : composite ∈ mergeComposites declared derived) :
    composite ∈ declared ∨ composite ∈ derived := by
  unfold mergeComposites at member
  induction derived generalizing declared with
  | nil =>
      exact .inl member
  | cons head rest inductionHypothesis =>
      rw [List.foldl_cons] at member
      rcases inductionHypothesis member with inMerged | inRest
      · split at inMerged
        · exact .inl inMerged
        · rcases List.mem_append.mp inMerged with inDeclared | atHead
          · exact .inl inDeclared
          · exact .inr (List.mem_singleton.mp atHead ▸ .head _)
      · exact .inr (.tail _ inRest)

/-- Merging keeps every declared composite. -/
theorem mem_mergeComposites_of_declared
    {declared derived : List Composite}
    {composite : Composite}
    (member : composite ∈ declared) :
    composite ∈ mergeComposites declared derived := by
  unfold mergeComposites
  induction derived generalizing declared with
  | nil =>
      exact member
  | cons head rest inductionHypothesis =>
      rw [List.foldl_cons]
      apply inductionHypothesis
      split
      · exact member
      · exact List.mem_append_left _ member

/-- Merging keeps or adds a composite of each derived name. -/
theorem exists_merged_of_derived
    {declared derived : List Composite}
    {composite : Composite}
    (member : composite ∈ derived) :
    ∃ merged ∈ mergeComposites declared derived, merged.name = composite.name := by
  unfold mergeComposites
  induction derived generalizing declared with
  | nil =>
      contradiction
  | cons head rest inductionHypothesis =>
      rw [List.foldl_cons]
      rcases List.mem_cons.mp member with atHead | inRest
      · -- Once the head has been merged its name is taken, and it stays so.
        split
        · rename_i taken
          obtain ⟨other, listed, same⟩ := List.any_eq_true.mp taken
          refine ⟨other, mem_mergeComposites_of_declared listed, ?_⟩
          rw [beq_iff_eq.mp same, atHead]
        · have added : head ∈ declared ++ [head] := by simp
          exact ⟨head, mem_mergeComposites_of_declared added, by rw [atHead]⟩
      · exact inductionHypothesis inRest

theorem nodup_mergeComposites
    {declared : List Composite}
    (noDuplicates : (declared.map (·.name)).Nodup)
    (derived : List Composite) :
    ((mergeComposites declared derived).map (·.name)).Nodup := by
  unfold mergeComposites
  induction derived generalizing declared with
  | nil =>
      exact noDuplicates
  | cons head rest inductionHypothesis =>
      rw [List.foldl_cons]
      apply inductionHypothesis
      split
      · exact noDuplicates
      · rename_i fresh
        rw [List.map_append, List.nodup_append]
        refine ⟨noDuplicates, by simp, ?_⟩
        intro name inDeclared other atHead same
        obtain ⟨composite, member, isName⟩ := List.mem_map.mp inDeclared
        apply fresh
        rw [List.any_eq_true]
        refine ⟨composite, member, ?_⟩
        simp_all

/-- Of derived composites with names of their own, those are left out whose names are declared. -/
theorem mergeComposites_eq_append_filter
    {derived : List Composite}
    (apart : (derived.map (·.name)).Nodup)
    (declared : List Composite) :
    mergeComposites declared derived =
      declared ++ derived.filter fun composite => !declared.any (·.name == composite.name) := by
  unfold mergeComposites
  -- A derived composite that has been kept counts as a declared one for those behind it.
  induction derived generalizing declared with
  | nil =>
      rw [List.foldl_nil, List.filter_nil, List.append_nil]
  | cons head rest inductionHypothesis =>
      rw [List.map_cons, List.nodup_cons] at apart
      rw [List.foldl_cons, List.filter_cons]
      by_cases taken : declared.any (·.name == head.name) = true
      · rw [if_pos taken, if_neg (by simp [taken]), inductionHypothesis apart.2]
      · rw [if_neg taken, if_pos (by simp [taken]), inductionHypothesis apart.2,
          List.append_assoc, List.singleton_append]
        congr 2
        refine List.filter_congr fun composite member => ?_
        have differs : head.name ≠ composite.name := fun same =>
          apart.1 (List.mem_map.mpr ⟨composite, member, same.symm⟩)
        simp [differs]

end Assembly

end ZodSchemas
