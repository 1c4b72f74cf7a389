import ZodSchemas.Assembly.Operation
import ZodSchemas.Proofs.PlannedUnits
import ZodSchemas.Proofs.Projections
import ZodSchemas.Proofs.Traversals

namespace ZodSchemas

/-!
# Closure of projections

Where every relation leads to a listed model, projections lead nowhere else: to
the bulk query of the target of a relation to many, or to a composite that is
declared or derived.  Operations choose among these composites only.  The
derived composites and the operations are guarded by the same settings in
separate places, so the guard under which a composite is referred to has to be
the one under which it is derived.
-/

open Metadata

namespace Assembly

/-- Every relation of several models leads to one of them. -/
def RelationsListed (models : List Model) : Prop :=
  ∀ model ∈ models, ∀ relation ∈ model.relations,
    ∃ target ∈ models, target.name = relation.typeName

/-- What a projection of a model may refer to: a bulk query or one of some composites. -/
inductive ProjectionTarget (models : List Model) (composites : List Composite) (model : Model) :
    String → Prop where
  | bulkQuery
      {relation : ModelField}
      {target : Model}
      (related : relation ∈ model.relations)
      (many : relation.isList = true)
      (listed : target ∈ models)
      (leads : target.name = relation.typeName) :
      ProjectionTarget models composites model (target.name ++ bulkQueryMark)
  | composite
      {composite : Composite}
      (merged : composite ∈ composites) :
      ProjectionTarget models composites model composite.name

/-- The arguments that choose a projection. -/
def projectionArgumentNames : List String :=
  ["select", "include"]

end Assembly

/-- The references below those entries of a unit's object that choose a projection. -/
def SchemaUnit.projectionReferences (unit : SchemaUnit) : List Reference :=
  match unit.expression with
  | some (.object fields _) =>
      (fields.filter fun field => Assembly.projectionArgumentNames.contains field.1).flatMap
        fun field => field.2.occurrences
  | _ => []

namespace Assembly

/-- A derived composite is merged under its name. -/
theorem exists_merged_of_projection
    {context : Context}
    {models : List Model}
    (emitted : context.emitsSelect = true ∨ context.emitsInclude = true)
    {model : Model}
    (listed : model ∈ models)
    {composite : Composite}
    (projection : ProjectionOf context model composite)
    (declared : List Composite) :
    ∃ merged ∈ mergeComposites declared (projections context models),
      merged.name = composite.name := by
  apply exists_merged_of_derived
  have derives : (context.emitsSelect || context.emitsInclude) = true := by
    simpa using emitted
  rw [projections, if_pos derives]
  exact List.mem_flatMap.mpr ⟨model, listed, projection.mem⟩

/-- Each composite to which a projection refers is derived under the same guard. -/
theorem ProjectionAlternative.target
    {context : Context}
    {models : List Model}
    (closed : RelationsListed models)
    (emitted : context.emitsSelect = true ∨ context.emitsInclude = true)
    {model : Model}
    (listed : model ∈ models)
    {alternative : TypeAlternative}
    (accepted : ProjectionAlternative context model alternative)
    (refers : alternative.location = .inputObjectTypes)
    (declared : List Composite) :
    ProjectionTarget models (mergeComposites declared (projections context models)) model
      alternative.typeName := by
  have derived
      {owner : Model}
      (ownerListed : owner ∈ models)
      {composite : Composite}
      (projection : ProjectionOf context owner composite) :
      ProjectionTarget models (mergeComposites declared (projections context models)) model
        composite.name := by
    obtain ⟨merged, member, sameName⟩ :=
      exists_merged_of_projection emitted ownerListed projection declared
    exact sameName ▸ .composite member
  cases accepted with
  | flag =>
      contradiction
  | @bulkQuery relation related many =>
      obtain ⟨target, targetListed, leads⟩ := closed model listed relation related
      change ProjectionTarget _ _ _ (relation.typeName ++ bulkQueryMark)
      rw [← leads]
      exact .bulkQuery related many targetListed leads
  | @defaults relation related one =>
      obtain ⟨target, targetListed, leads⟩ := closed model listed relation related
      change ProjectionTarget _ _ _ (defaultArgumentsName relation.typeName)
      rw [← leads]
      exact derived targetListed .defaults
  | selection selects =>
      exact derived listed (.selection selects)
  | inclusion includes related =>
      exact derived listed (.inclusion includes related)
  | countSelection selects related =>
      exact derived listed (.countSelection selects related)
  | countArguments selects related =>
      exact derived listed (.countArguments selects related)

/-- An entry that chooses a projection holds the reference to its composite, deferred or not. -/
theorem occurrences_projectionArgument
    (deferred : Bool)
    (argument composite : String) :
    (projectionArgument deferred argument composite).2.occurrences = [⟨composite, .object⟩] := by
  rw [Expr.occurrences, Expr.nodes_eq_walk]
  cases deferred <;> rfl

/-- Only composites that are derived for a model are chosen by its operations. -/
theorem projection_of_projectionArguments
    {context : Context}
    {model : Model}
    {deferred : Bool}
    {argument : String × Expr}
    (member : argument ∈ projectionArguments context model deferred) :
    ∃ composite, ProjectionOf context model composite ∧
      argument.2.occurrences = [⟨composite.name, .object⟩] := by
  rcases List.mem_append.mp member with inSelect | inInclude
  · split at inSelect
    · rename_i emitted
      rw [List.mem_singleton.mp inSelect]
      exact ⟨_, .selection emitted, occurrences_projectionArgument _ _ _⟩
    · contradiction
  · split at inInclude
    · rename_i emitted
      rw [Bool.and_eq_true] at emitted
      rw [List.mem_singleton.mp inInclude]
      exact ⟨_, .inclusion emitted.1 emitted.2, occurrences_projectionArgument _ _ _⟩
    · contradiction

/-- Arguments of which none chooses a projection. -/
def ChoosesNothing (arguments : List (String × Expr)) : Prop :=
  ∀ argument ∈ arguments, argument.1 ∉ projectionArgumentNames

@[simp] theorem choosesNothing_nil :
    ChoosesNothing [] :=
  List.forall_mem_nil _

@[simp] theorem choosesNothing_cons
    {argument : String × Expr}
    {rest : List (String × Expr)} :
    ChoosesNothing (argument :: rest) ↔
      argument.1 ∉ projectionArgumentNames ∧ ChoosesNothing rest :=
  List.forall_mem_cons

@[simp] theorem choosesNothing_append
    {arguments others : List (String × Expr)} :
    ChoosesNothing (arguments ++ others) ↔ ChoosesNothing arguments ∧ ChoosesNothing others :=
  List.forall_mem_append

theorem choosesNothing_searchArguments
    (context : Context)
    (model : Model) :
    ChoosesNothing (searchArguments context model) := by
  simp [searchArguments, rangeArguments, pageArguments, condition, takeArgument, skipArgument,
    projectionArgumentNames]

theorem choosesNothing_aggregateArguments
    (support : AggregateSupport)
    (model : Model) :
    ChoosesNothing (aggregateArguments support model) := by
  have prefixed (aggregate : Aggregate) : "_" ++ aggregate.label ∉ projectionArgumentNames := by
    cases aggregate <;> decide
  intro argument member
  obtain ⟨aggregate, -, rfl⟩ := List.mem_map.mp member
  exact prefixed aggregate

/-- An argument that chooses a projection is one of those that follow from the settings. -/
theorem mem_projectionArguments_of_mem_arguments
    {context : Context}
    {support : AggregateSupport}
    {model : Model}
    {operation : Operation}
    {argument : String × Expr}
    (member : argument ∈ arguments context support model operation)
    (chooses : argument.1 ∈ projectionArgumentNames) :
    ∃ deferred, argument ∈ projectionArguments context model deferred := by
  have search := choosesNothing_searchArguments context model
  have range : ChoosesNothing (rangeArguments context model) :=
    (choosesNothing_append.mp search).1
  have aggregates := choosesNothing_aggregateArguments support model
  have projecting
      {deferred : Bool}
      {others : List (String × Expr)}
      (nothing : ChoosesNothing others)
      (inBoth : argument ∈ projectionArguments context model deferred ++ others) :
      ∃ deferred, argument ∈ projectionArguments context model deferred :=
    (List.mem_append.mp inBoth).elim (⟨deferred, ·⟩) fun inOthers =>
      absurd chooses (nothing argument inOthers)
  have unprojected (nothing : ChoosesNothing (arguments context support model operation)) :
      ∃ deferred, argument ∈ projectionArguments context model deferred :=
    absurd chooses (nothing argument member)
  cases operation with
  | findUnique | deleteOne | createOne | updateOne | upsertOne =>
      refine projecting ?_ member
      simp [identityCondition, projectionArgumentNames]
  | findFirst | findMany =>
      exact projecting search member
  | aggregate =>
      exact unprojected (choosesNothing_append.mpr ⟨range, aggregates⟩)
  | createMany =>
      apply unprojected
      rw [arguments]
      split <;> simp [projectionArgumentNames]
  | deleteMany | updateMany | groupBy =>
      apply unprojected
      simp [arguments, condition, takeArgument, skipArgument, projectionArgumentNames]

/-- The projections that an operation chooses are derived for its model. -/
theorem projection_of_projectionReferences
    {context : Context}
    {document : Document}
    {model : Model}
    {operation : Operation}
    {reference : Reference}
    (member :
      reference ∈ (operationUnit context document model operation).projectionReferences) :
    ∃ composite, ProjectionOf context model composite ∧
      reference = ⟨composite.name, .object⟩ := by
  obtain ⟨argument, inFilter, occurs⟩ := List.mem_flatMap.mp member
  obtain ⟨inArguments, chooses⟩ := List.mem_filter.mp inFilter
  obtain ⟨deferred, inProjections⟩ :=
    mem_projectionArguments_of_mem_arguments inArguments (List.contains_iff_mem.mp chooses)
  obtain ⟨composite, projection, only⟩ := projection_of_projectionArguments inProjections
  rw [only] at occurs
  exact ⟨composite, projection, List.mem_singleton.mp occurs⟩

/-- Projections of models whose relations lead to each other refer to bulk queries of relations
and to declared or derived composites; operations choose among the latter. -/
theorem projections_closed
    {context : Context}
    (emitted : context.emitsSelect = true ∨ context.emitsInclude = true)
    {models : List Model}
    (closed : RelationsListed models)
    (declared : List Composite) :
    (∀ composite ∈ projections context models,
      (∃ model ∈ models, composite ∈ modelProjections context model) ∧
        ∀ model ∈ models, composite ∈ modelProjections context model →
          ∀ field ∈ composite.fields, ∀ alternative ∈ field.alternatives,
            alternative.location = .inputObjectTypes →
              ProjectionTarget models (mergeComposites declared (projections context models)) model
                alternative.typeName) ∧
      ∀ model ∈ models, ∀ document operation,
        ∀ reference ∈ (operationUnit context document model operation).projectionReferences,
          reference.kind = .object ∧
            ∃ composite ∈ mergeComposites declared (projections context models),
              composite.name = reference.name := by
  constructor
  · intro composite derived
    constructor
    · obtain ⟨model, listed, projection⟩ := mem_projections derived
      exact ⟨model, listed, projection.mem⟩
    · intro model listed member field fieldMember alternative accepted refers
      have alternativeOf := (mem_modelProjections member).alternative fieldMember accepted
      exact alternativeOf.target closed emitted listed refers declared
  · intro model listed document operation reference member
    obtain ⟨composite, projection, rfl⟩ := projection_of_projectionReferences member
    exact ⟨rfl, exists_merged_of_projection emitted listed projection declared⟩

/-- A model with a relation to many, and one with a relation back. -/
def authorsAndPosts : List Model :=
  [⟨"User", [⟨"posts", .object, "Post", true, true⟩]⟩,
    ⟨"Post", [⟨"author", .object, "User", false, true⟩]⟩]

/-- A context in which all projections are emitted. -/
def projectingContext : Context :=
  { Context.default with emitsSelect := true, emitsInclude := true }

theorem projections_closed_authorsAndPosts :
    projectingContext.emitsSelect = true ∧
      RelationsListed authorsAndPosts ∧
      (∀ model ∈ authorsAndPosts,
        ∀ field ∈ (selectComposite projectingContext model).fields,
          ∀ alternative ∈ field.alternatives, alternative.location = .inputObjectTypes →
            ProjectionTarget authorsAndPosts
              (mergeComposites [⟨"UserInclude", []⟩]
                (projections projectingContext authorsAndPosts))
              model alternative.typeName) ∧
      ∀ model ∈ authorsAndPosts, ∀ document operation,
        ∀ reference ∈
            (operationUnit projectingContext document model operation).projectionReferences,
          reference.kind = .object ∧
            ∃ composite ∈
                mergeComposites [⟨"UserInclude", []⟩]
                  (projections projectingContext authorsAndPosts),
              composite.name = reference.name := by
  have emitted :
      projectingContext.emitsSelect = true ∨ projectingContext.emitsInclude = true :=
    .inl rfl
  have listed : RelationsListed authorsAndPosts := by
    unfold RelationsListed
    decide
  have derived :
      ∀ model ∈ authorsAndPosts,
        selectComposite projectingContext model ∈
          projections projectingContext authorsAndPosts := by
    decide
  have closed :=
    projections_closed emitted listed [⟨"UserInclude", []⟩]
  refine ⟨rfl, listed, ?_, closed.2⟩
  intro model member
  exact (closed.1 _ (derived model member)).2 model member (ProjectionOf.selection rfl).mem

end Assembly

end ZodSchemas
