import ZodSchemas.Proofs.Paths
import ZodSchemas.Proofs.References
import ZodSchemas.Proofs.Rendering
import ZodSchemas.Proofs.StructuralChecks
import ZodSchemas.Proofs.TaskRuns

namespace ZodSchemas

/-!
# The only reason to fail

A compilation fails if a model is missing for which operations are planned, and
for no other reason.  The planner takes the first mapping of each model only, so
what counts is the position of a mapping: an earlier mapping of the same model
hides it, and a mapping without operations asks for nothing.
-/

open Metadata

/-- Only a path to nowhere cannot be computed. -/
theorem Path.isSome_specifier?
    {target : String}
    (nonempty : target ≠ "")
    (workingDirectory start : String) :
    (Path.specifier? workingDirectory start target).isSome = true := by
  simp [Path.specifier?, Path.relative?, nonempty]

namespace Assembly

/-- A mapping behind others is the first one of its model, lists operations, and names a model that
the document does not contain. -/
structure NamesUnknown
    (document : Document)
    (earlier : List OperationMapping)
    (mapping : OperationMapping) :
    Prop where
  first : ∀ other ∈ earlier, other.model ≠ mapping.model
  used : mapping.operations ≠ []
  unknown : ∀ model ∈ document.models, model.name ≠ mapping.model

/-- A name is the first unknown one among the mappings of a document. -/
def FirstUnknown (document : Document) (name : String) : Prop :=
  ∃ earlier mapping later,
    document.mappings = earlier ++ mapping :: later ∧
      NamesUnknown document earlier mapping ∧
      mapping.model = name ∧
      ∀ prior other rest, earlier = prior ++ other :: rest → ¬ NamesUnknown document prior other

/-- Where some mapping names an unknown model, there is a first one. -/
theorem exists_firstUnknown
    {document : Document}
    {earlier later : List OperationMapping}
    {mapping : OperationMapping}
    (atMapping : document.mappings = earlier ++ mapping :: later)
    (names : NamesUnknown document earlier mapping) :
    ∃ name, FirstUnknown document name := by
  -- The induction goes to ever earlier mappings until none before names an unknown model.
  induction length : earlier.length using Nat.strong_induction_on
    generalizing earlier mapping later with
  | _ bound inductionHypothesis =>
      by_cases more :
          ∃ prior other rest, earlier = prior ++ other :: rest ∧ NamesUnknown document prior other
      · obtain ⟨prior, other, rest, inEarlier, otherNames⟩ := more
        have shorter : prior.length < bound := by
          rw [← length, inEarlier, List.length_append, List.length_cons]
          omega
        have atOther : document.mappings = prior ++ other :: (rest ++ mapping :: later) := by
          rw [atMapping, inEarlier, List.append_assoc, List.cons_append]
        exact inductionHypothesis prior.length shorter atOther otherNames rfl
      · refine ⟨mapping.model, earlier, mapping, later, atMapping, names, rfl, ?_⟩
        intro prior other rest inEarlier otherNames
        exact more ⟨prior, other, rest, inEarlier, otherNames⟩

/-- The first mappings behind others are those of models that are not mapped before. -/
theorem firstMappings_append
    (mappings others : List OperationMapping) :
    firstMappings (mappings ++ others) =
      firstMappings mappings ++
        (firstMappings others).filter fun other =>
          mappings.all fun mapping => other.model ≠ mapping.model := by
  induction mappings with
  | nil =>
      simp [firstMappings]
  | cons head rest inductionHypothesis =>
      rw [List.cons_append, firstMappings, inductionHypothesis, firstMappings,
        List.filter_append, List.filter_filter]
      simp [List.all_cons]

/-- A first mapping stands where no mapping before is of its model. -/
theorem mem_firstMappings_iff
    {mappings : List OperationMapping}
    {mapping : OperationMapping} :
    mapping ∈ firstMappings mappings ↔
      ∃ earlier later, mappings = earlier ++ mapping :: later ∧
        ∀ other ∈ earlier, other.model ≠ mapping.model := by
  constructor
  · intro member
    induction mappings with
    | nil =>
        contradiction
    | cons head rest inductionHypothesis =>
        rw [firstMappings, List.mem_cons, List.mem_filter, decide_eq_true_iff] at member
        rcases member with atHead | ⟨inRest, ofAnother⟩
        · exact ⟨[], rest, by rw [atHead, List.nil_append], List.forall_mem_nil _⟩
        · obtain ⟨earlier, later, inOrder, first⟩ := inductionHypothesis inRest
          refine ⟨head :: earlier, later, by rw [inOrder, List.cons_append], ?_⟩
          exact List.forall_mem_cons.mpr ⟨ofAnother.symm, first⟩
  · rintro ⟨earlier, later, rfl, first⟩
    rw [firstMappings_append, firstMappings]
    refine List.mem_append_right _ (List.mem_filter.mpr ⟨.head _, ?_⟩)
    rw [List.all_eq_true]
    intro other member
    exact decide_eq_true (first other member).symm

/-- The unknown model that a first mapping asks for, if it does. -/
def unknownModel? (document : Document) (mapping : OperationMapping) : Option String :=
  if mapping.operations ≠ [] ∧ document.model? mapping.model = none then some mapping.model
  else none

theorem model?_eq_none_iff
    {document : Document}
    {name : String} :
    document.model? name = none ↔ ∀ model ∈ document.models, model.name ≠ name := by
  simp [Document.model?, List.find?_eq_none]

theorem unknownModel?_of_names
    {document : Document}
    {earlier : List OperationMapping}
    {mapping : OperationMapping}
    (names : NamesUnknown document earlier mapping) :
    unknownModel? document mapping = some mapping.model :=
  if_pos ⟨names.used, model?_eq_none_iff.mpr names.unknown⟩

/-- A first mapping that asks for an unknown model names it. -/
theorem names_of_unknownModel?
    {document : Document}
    {earlier : List OperationMapping}
    {mapping : OperationMapping}
    (first : ∀ other ∈ earlier, other.model ≠ mapping.model)
    {name : String}
    (unknown : unknownModel? document mapping = some name) :
    NamesUnknown document earlier mapping := by
  unfold unknownModel? at unknown
  split at unknown
  · rename_i asks
    exact ⟨first, asks.1, model?_eq_none_iff.mp asks.2⟩
  · contradiction

/-- Along the first mappings one meets the first unknown model. -/
theorem findSome?_of_firstUnknown
    {document : Document}
    {name : String}
    (firstUnknown : FirstUnknown document name) :
    (firstMappings document.mappings).findSome? (unknownModel? document) = some name := by
  obtain ⟨earlier, mapping, later, inOrder, names, rfl, noneBefore⟩ := firstUnknown
  have knownBefore : (firstMappings earlier).findSome? (unknownModel? document) = none := by
    rw [List.findSome?_eq_none_iff]
    intro other member
    obtain ⟨prior, rest, inEarlier, first⟩ := mem_firstMappings_iff.mp member
    cases unknown : unknownModel? document other with
    | none =>
        rfl
    | some otherName =>
        exact absurd (names_of_unknownModel? first unknown)
          (noneBefore prior other rest inEarlier)
  have isFirst : (earlier.all fun other => mapping.model ≠ other.model) = true := by
    rw [List.all_eq_true]
    intro other member
    exact decide_eq_true (names.first other member).symm
  rw [inOrder, firstMappings_append, List.findSome?_append, knownBefore, Option.none_or,
    firstMappings, List.filter_cons, if_pos isFirst, List.findSome?_cons,
    unknownModel?_of_names names]

theorem findSome?_eq_some_iff_firstUnknown
    {document : Document}
    {name : String} :
    (firstMappings document.mappings).findSome? (unknownModel? document) = some name ↔
      FirstUnknown document name := by
  refine ⟨fun found => ?_, findSome?_of_firstUnknown⟩
  obtain ⟨mapping, member, unknown⟩ := List.exists_of_findSome?_eq_some found
  obtain ⟨earlier, later, inOrder, first⟩ := mem_firstMappings_iff.mp member
  obtain ⟨other, firstUnknown⟩ :=
    exists_firstUnknown inOrder (names_of_unknownModel? first unknown)
  have same : some name = some other := found.symm.trans (findSome?_of_firstUnknown firstUnknown)
  exact Option.some.inj same ▸ firstUnknown

theorem mappedOperations_eq_nil_iff
    {mapping : OperationMapping} :
    mappedOperations mapping = [] ↔ mapping.operations = [] := by
  rw [mappedOperations, List.filter_eq_nil_iff, List.eq_nil_iff_forall_not_mem]
  constructor
  · intro unsupported operation listed
    exact unsupported operation (Operation.mem_all operation) (List.contains_iff_mem.mpr listed)
  · intro unlisted operation _ supported
    exact unlisted operation (List.contains_iff_mem.mp supported)

/-- The tasks of a mapping fail on the model that the mapping asks for. -/
theorem findSome?_mappingTasks
    (context : Context)
    (document : Document)
    (mapping : OperationMapping) :
    (mappingTasks context document mapping).findSome? Task.unknownModel? =
      unknownModel? document mapping := by
  rw [mappingTasks, List.findSome?_map, unknownModel?]
  cases known : document.model? mapping.model with
  | some model =>
      rw [if_neg (by simp), List.findSome?_eq_none_iff]
      intro operation _
      simp [Task.unknownModel?, operationTask, operationOutcome, known]
  | none =>
      have fails (operation : Operation) :
          (Task.unknownModel? ∘ operationTask context document mapping.model) operation =
            some mapping.model := by
        simp [Task.unknownModel?, operationTask, operationOutcome, known]
      cases operations : mappedOperations mapping with
      | nil =>
          rw [if_neg (by simp [mappedOperations_eq_nil_iff.mp operations])]
          rfl
      | cons operation rest =>
          have used : mapping.operations ≠ [] := by
            intro unused
            rw [mappedOperations_eq_nil_iff.mpr unused] at operations
            contradiction
          rw [List.findSome?_cons, fails, if_pos ⟨used, rfl⟩]

theorem findSome?_flatMap
    (items : List β)
    (parts : β → List γ)
    (select : γ → Option δ) :
    (items.flatMap parts).findSome? select =
      items.findSome? fun item => (parts item).findSome? select := by
  induction items with
  | nil =>
      rfl
  | cons item rest inductionHypothesis =>
      rw [List.flatMap_cons, List.findSome?_append, inductionHypothesis, List.findSome?_cons]
      cases (parts item).findSome? select <;> rfl

/-- The tasks of a plan fail on unknown models of operations only. -/
theorem findSome?_plan
    (context : Context)
    (document : Document) :
    (plan context document).findSome? Task.unknownModel? =
      (firstMappings document.mappings).findSome? (unknownModel? document) := by
  have enumerations : (document.enums.map enumTask).findSome? Task.unknownModel? = none := by
    rw [List.findSome?_map, List.findSome?_eq_none_iff]
    intro enumType _
    rfl
  have composites :
      ((allComposites context document).map (compositeTask context)).findSome?
        Task.unknownModel? = none := by
    rw [List.findSome?_map, List.findSome?_eq_none_iff]
    intro composite _
    rfl
  rw [plan, List.findSome?_append, List.findSome?_append, enumerations, composites,
    findSome?_flatMap]
  simp only [Option.none_or, findSome?_mappingTasks]

theorem usedModelsKnown_of_findSome?_eq_none
    {document : Document}
    (noUnknown :
      (firstMappings document.mappings).findSome? (unknownModel? document) = none) :
    UsedModelsKnown document := by
  intro mapping first used
  have known := List.findSome?_eq_none_iff.mp noUnknown mapping first
  rw [← Option.isSome_iff_exists, Option.isSome_iff_ne_none]
  intro missing
  rw [unknownModel?, if_pos ⟨used, missing⟩] at known
  contradiction

/-- A compilation fails on the first unknown model, and on nothing else. -/
theorem compile_eq_error_iff
    {workingDirectory : String}
    {settings : Settings}
    {document : Document}
    {error : CompileError} :
    compile workingDirectory settings document = .error error ↔
      ∃ name, error = .unknownModel name ∧ FirstUnknown document name := by
  cases found : (firstMappings document.mappings).findSome? (unknownModel? document) with
  | some name =>
      have fails :
          compile workingDirectory settings document = .error (.unknownModel name) := by
        simp only [compile, assemble_eq, findSome?_plan, found]
      rw [fails]
      constructor
      · rintro ⟨rfl⟩
        exact ⟨name, rfl, findSome?_eq_some_iff_firstUnknown.mp found⟩
      · rintro ⟨other, rfl, firstUnknown⟩
        have same := found.symm.trans (findSome?_of_firstUnknown firstUnknown)
        rw [Option.some.inj same]
  | none =>
      have known := usedModelsKnown_of_findSome?_eq_none found
      obtain ⟨files, compiled, -⟩ := compile_of_usedModelsKnown workingDirectory settings known
      rw [compiled]
      constructor
      · rintro ⟨⟩
      · rintro ⟨name, -, firstUnknown⟩
        rw [findSome?_of_firstUnknown firstUnknown] at found
        contradiction

/-- No task is broken, whether or not its model is known. -/
theorem outcome_ne_broken
    {context : Context}
    {document : Document}
    {task : Task}
    (member : task ∈ plan context document)
    (kind message : String) :
    task.outcome ≠ .error (.broken kind message) := by
  rw [plan, List.mem_append, List.mem_append, List.mem_flatMap] at member
  rcases member with (inEnums | inComposites) | ⟨mapping, -, inMapping⟩
  · obtain ⟨enumType, -, rfl⟩ := List.mem_map.mp inEnums
    rintro ⟨⟩
  · obtain ⟨composite, -, rfl⟩ := List.mem_map.mp inComposites
    rintro ⟨⟩
  · obtain ⟨operation, -, rfl⟩ := List.mem_map.mp inMapping
    rw [operationTask, operationOutcome]
    split <;> rintro ⟨⟩

/-- A reference to an operation has the form of a bulk query. -/
theorem isSome_bulkQueryModel?_of_referenceKind?
    {context : Context}
    {alternative : TypeAlternative}
    (refers : referenceKind? context alternative = some .operation) :
    (bulkQueryModel? alternative.typeName).isSome = true := by
  unfold referenceKind? at refers
  split at refers
  · contradiction
  · split at refers
    · contradiction
    · split at refers
      · assumption
      · contradiction
  · contradiction
  · contradiction

/-- A compilation fails for unknown models only; every other step of it succeeds. -/
structure FailsForUnknownModelsOnly
    (workingDirectory : String)
    (settings : Settings)
    (document : Document) :
    Prop where
  /-- The only error is the first unknown model in the order of the plan. -/
  errors :
    ∀ error,
      compile workingDirectory settings document = .error error ↔
        ∃ name, error = .unknownModel name ∧ FirstUnknown document name
  /-- There is an error if some mapping names an unknown model, wherever it stands. -/
  fails :
    (∃ error, compile workingDirectory settings document = .error error) ↔
      ∃ earlier mapping later,
        document.mappings = earlier ++ mapping :: later ∧ NamesUnknown document earlier mapping
  /-- However many workers share the tasks, their collector returns what a run in order does. -/
  schedules :
    ∀ workers pool verdict,
      Relation.ReflTransGen (Pool.Step workers)
          (.initial (plan (.build settings document) document)) pool →
        pool.verdict? = some verdict → verdict = assemble (plan (.build settings document) document)
  /-- Every run of a pool leads on to a verdict. -/
  ends :
    ∀ workers pool, 0 < workers →
      ∃ last verdict,
        Relation.ReflTransGen (Pool.Step workers) pool last ∧ last.verdict? = some verdict
  /-- No unit fails to assemble. -/
  assembles :
    ∀ task ∈ plan (.build settings document) document, ∀ kind message,
      task.outcome ≠ .error (.broken kind message)
  /-- No unit and no index fails to render. -/
  renders :
    ∀ unit ∈ withIndex (plannedUnits (.build settings document) document),
      ∃ content,
        unit.render workingDirectory (.build settings document) = .ok ⟨unit.path, content⟩
  /-- A reference to an operation always finds the model in its name. -/
  resolves :
    ∀ alternative, referenceKind? (.build settings document) alternative = some .operation →
      (bulkQueryModel? alternative.typeName).isSome = true
  /-- The relative paths to a referenced module and to the client can be computed from anywhere. -/
  locates :
    ∀ start,
      (∀ reference : Reference,
        (Path.specifier? workingDirectory start reference.stem).isSome = true) ∧
        (Path.specifier? workingDirectory start
          (SchemaUnit.clientPlace (.build settings document))).isSome = true
  /-- A document in which all checks together find no error compiles. -/
  checked :
    (Check.full settings document).hasErrors = false →
      ∃ files, compile workingDirectory settings document = .ok files

/-- Whatever the settings and the document are, a compilation fails for unknown models only. -/
theorem fails_for_unknown_models_only
    (workingDirectory : String)
    (settings : Settings)
    (document : Document) :
    FailsForUnknownModelsOnly workingDirectory settings document where
  errors := fun _ => compile_eq_error_iff
  fails := by
    constructor
    · rintro ⟨error, failed⟩
      obtain ⟨-, -, earlier, mapping, later, inOrder, names, -⟩ := compile_eq_error_iff.mp failed
      exact ⟨earlier, mapping, later, inOrder, names⟩
    · rintro ⟨earlier, mapping, later, inOrder, names⟩
      obtain ⟨name, firstUnknown⟩ := exists_firstUnknown inOrder names
      exact ⟨.unknownModel name, compile_eq_error_iff.mpr ⟨name, rfl, firstUnknown⟩⟩
  schedules := fun _ _ _ run returned => (Pool.ordered_of_run run).verdict_eq returned
  ends := fun _ pool enough => Pool.exists_verdict enough pool
  assembles := fun _ member kind message => outcome_ne_broken member kind message
  renders := fun _ member => render_path member
  resolves := fun _ refers => isSome_bulkQueryModel?_of_referenceKind? refers
  locates := fun start =>
    ⟨fun reference => Path.isSome_specifier? reference.stem_ne_empty workingDirectory start,
      Path.isSome_specifier? (SchemaUnit.clientPlace_ne_empty _) workingDirectory start⟩
  checked := by
    intro noErrors
    have sound := Check.sound_of_full noErrors
    obtain ⟨files, compiled, -⟩ :=
      compile_of_known workingDirectory settings sound.firstMappedModelsKnown
    exact ⟨_, compiled⟩

/-- Two models that the document does not contain; the first mapping of `Ghost` lists nothing. -/
example :
    compile "/" .default
        { provider := .postgresql
          previewFeatures := []
          models := []
          enums := []
          composites := []
          mappings :=
            [⟨"Ghost", [], []⟩, ⟨"Ghost", [.findMany], []⟩, ⟨"Phantom", [.deleteMany], []⟩]
          aggregateSupport := none } =
      .error (.unknownModel "Phantom") :=
  rfl

end Assembly

end ZodSchemas
