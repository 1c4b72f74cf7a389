import ZodSchemas.Proofs.DerivedTables
import ZodSchemas.Proofs.PlannedUnits

namespace ZodSchemas

/-!
# Arguments for aggregates

The unit of an aggregate operation has one argument for each aggregate that its
model supports.  What a model supports is stated by the document, or else it
follows from the names of composites.  No suffix of an aggregate input ends in
another one, so such a name can be taken apart in one way only, and a model whose
name contains that of another one does not disturb it.
-/

namespace Metadata

@[simp] theorem Aggregate.mem_all (aggregate : Aggregate) : aggregate ∈ Aggregate.all := by
  cases aggregate <;> decide

/-- No suffix of an aggregate input ends in that of another aggregate. -/
theorem Aggregate.eq_of_inputSuffix_suffix
    {first second : Aggregate}
    (ending : first.inputSuffix.toList <:+ second.inputSuffix.toList) :
    first = second := by
  have suffixesApart :
      ∀ one ∈ Aggregate.all, ∀ other ∈ Aggregate.all,
        one.inputSuffix.toList <:+ other.inputSuffix.toList → one = other := by
    decide
  exact suffixesApart first first.mem_all second second.mem_all ending

theorem suffix_of_aggregateOf?
    {name : String}
    {aggregate : Aggregate}
    (found : aggregateOf? name = some aggregate) :
    aggregate.inputSuffix.toList <:+ name.toList := by
  rw [aggregateOf?] at found
  have ends := List.find?_some found
  exact List.isSuffixOf_iff_suffix.mp ends

/-- The suffix that is found first is the only one that a name can end in. -/
theorem aggregateOf?_eq_some_iff
    {name : String}
    {aggregate : Aggregate} :
    aggregateOf? name = some aggregate ↔ aggregate.inputSuffix.toList <:+ name.toList := by
  constructor
  · exact suffix_of_aggregateOf?
  · intro ends
    have found : (aggregateOf? name).isSome := by
      rw [aggregateOf?, List.find?_isSome]
      exact ⟨aggregate, aggregate.mem_all, List.isSuffixOf_iff_suffix.mpr ends⟩
    obtain ⟨first, isFirst⟩ := Option.isSome_iff_exists.mp found
    rw [isFirst, Option.some_inj]
    -- Of two endings of one name the shorter one ends the longer one.
    rcases Text.endings_comparable (suffix_of_aggregateOf? isFirst) ends with inner | outer
    · exact Aggregate.eq_of_inputSuffix_suffix inner
    · exact (Aggregate.eq_of_inputSuffix_suffix outer).symm

theorem aggregateModel_append
    (model : String)
    (aggregate : Aggregate) :
    aggregateModel aggregate (model ++ aggregate.inputSuffix) = model := by
  simp [aggregateModel]

/-- A name that ends in the suffix of an aggregate is that of its model with the suffix. -/
theorem eq_aggregateModel_append
    {name : String}
    {aggregate : Aggregate}
    (ends : aggregate.inputSuffix.toList <:+ name.toList) :
    name = aggregateModel aggregate name ++ aggregate.inputSuffix := by
  obtain ⟨start, shape⟩ := ends
  have isAppended : name = String.ofList start ++ aggregate.inputSuffix := by
    rw [← String.toList_inj, String.toList_append, String.toList_ofList, shape]
  rw [isAppended, aggregateModel_append]

/-- A composite shows that a model supports an aggregate exactly if it has the name of the model
with the suffix of the aggregate. -/
theorem shows_iff
    {model : String}
    {aggregate : Aggregate}
    {composite : Composite} :
    shows model aggregate composite = true ↔ composite.name = model ++ aggregate.inputSuffix := by
  rw [shows, Option.any_eq_true]
  constructor
  · rintro ⟨shown, found, same⟩
    obtain ⟨sameAggregate, sameModel⟩ := Bool.and_eq_true_iff.mp same
    obtain rfl : shown = aggregate := beq_iff_eq.mp sameAggregate
    rw [← beq_iff_eq.mp sameModel]
    exact eq_aggregateModel_append (aggregateOf?_eq_some_iff.mp found)
  · intro named
    refine ⟨aggregate, aggregateOf?_eq_some_iff.mpr ?_, ?_⟩
    · rw [named]
      exact Text.suffix_append _ _
    · rw [named, aggregateModel_append]
      simp

/-- What follows from the names of composites does not depend on their order, nor on those of
other models. -/
theorem has_derivedSupport_iff
    {document : Document}
    {model : String}
    {aggregate : Aggregate} :
    (supportIn document.derivedSupport model).has aggregate = true ↔
      ∃ composite ∈ document.composites, composite.name = model ++ aggregate.inputSuffix := by
  rw [has_supportIn_derivedSupport, List.any_eq_true]
  simp only [shows_iff]

end Metadata

namespace SchemaUnit

/-- The validators that a unit has under the name of an argument. -/
def validatorsOf (unit : SchemaUnit) (argument : String) : List Expr :=
  match unit.expression with
  | some (.object arguments _) => (arguments.filter (·.1 == argument)).map (·.2)
  | _ => []

end SchemaUnit

namespace Assembly

open Metadata

/-- The name of the argument for an aggregate. -/
def aggregateKey (aggregate : Aggregate) : String :=
  "_" ++ aggregate.label

theorem aggregateKey_inj
    {first second : Aggregate} :
    aggregateKey first = aggregateKey second ↔ first = second := by
  cases first <;> cases second <;> decide

/-- The arguments that give the range have other names than those for aggregates. -/
theorem filter_rangeArguments
    (context : Context)
    (model : Model)
    (aggregate : Aggregate) :
    (rangeArguments context model).filter (·.1 == aggregateKey aggregate) = [] := by
  have apart : ∀ name ∈ ["orderBy", "where", "cursor", "take", "skip"],
      (name == aggregateKey aggregate) = false := by
    cases aggregate <;> decide
  rw [List.filter_eq_nil_iff]
  intro argument member
  have named : argument.1 ∈ (rangeArguments context model).map Prod.fst :=
    List.mem_map_of_mem member
  exact Bool.eq_false_iff.mp (apart argument.1 named)

/-- The aggregates are different ones, so each is listed once. -/
theorem filter_all_eq
    (aggregate : Aggregate) :
    Aggregate.all.filter (· == aggregate) = [aggregate] := by
  cases aggregate <;> decide

/-- There is one argument for a supported aggregate, and none for another one. -/
theorem filter_aggregateArguments
    (support : AggregateSupport)
    (model : Model)
    (aggregate : Aggregate) :
    (aggregateArguments support model).filter (·.1 == aggregateKey aggregate) =
      if support.has aggregate then [aggregateArgument model aggregate] else [] := by
  have byKey :
      (fun other => (aggregateArgument model other).1 == aggregateKey aggregate) =
        (· == aggregate) := by
    funext other
    rw [Bool.eq_iff_iff, beq_iff_eq, beq_iff_eq]
    exact aggregateKey_inj
  calc (aggregateArguments support model).filter (·.1 == aggregateKey aggregate)
      = ((Aggregate.all.filter support.has).filter (· == aggregate)).map
          (aggregateArgument model) := by
        rw [aggregateArguments, List.filter_map]
        exact congrArg (fun test => (List.filter test _).map _) byKey
    _ = ([aggregate].filter support.has).map (aggregateArgument model) := by
        rw [List.filter_comm, filter_all_eq]
    _ = if support.has aggregate then [aggregateArgument model aggregate] else [] := by
        cases isSupported : support.has aggregate <;> simp [isSupported]

/-- The unit of an aggregate operation refers once to the input of each supported aggregate. -/
theorem validatorsOf_aggregateKey
    (context : Context)
    (document : Document)
    (model : Model)
    (aggregate : Aggregate) :
    (operationUnit context document model .aggregate).validatorsOf (aggregateKey aggregate) =
      if (supportIn document.support model.name).has aggregate then
        [.optional (.reference ⟨model.name ++ aggregate.inputSuffix, .object⟩)]
      else [] := by
  change ((rangeArguments context model ++
    aggregateArguments (supportIn document.support model.name) model).filter
      (·.1 == aggregateKey aggregate)).map (·.2) = _
  rw [List.filter_append, filter_rangeArguments, List.nil_append, filter_aggregateArguments]
  split <;> rfl

/-- No aggregate input is renamed, since the names that raw operations have end in another mark. -/
theorem compositeUnitName_aggregateInput
    (settings : Settings)
    (document : Document)
    (model : String)
    (aggregate : Aggregate) :
    compositeUnitName (Context.build settings document) (model ++ aggregate.inputSuffix) =
      model ++ aggregate.inputSuffix := by
  unfold compositeUnitName
  split
  · rename_i arguments renamed
    obtain ⟨operation, mapping, -, entry⟩ := exists_mapping_of_rawOperation? renamed
    have named : (rawOperationEntry operation mapping.model).1 = model ++ aggregate.inputSuffix :=
      congrArg Prod.fst entry
    -- What raw operations rename ends in their mark, and no aggregate input does.
    have endsInMark : "Raw".toList <:+ (model ++ aggregate.inputSuffix).toList := by
      rw [← named]
      exact Text.suffix_append _ _
    have apart :
        ¬ ("Raw".toList <:+ aggregate.inputSuffix.toList ∨
          aggregate.inputSuffix.toList <:+ "Raw".toList) := by
      cases aggregate <;> decide
    exact (apart (Text.endings_comparable endsInMark (Text.suffix_append _ _))).elim
  · rfl

/-- The arguments for aggregates of the unit of an aggregate operation on a model, and the units
that they refer to. -/
structure HasAggregatesOf (context : Context) (document : Document) (model : String)
    (unit : SchemaUnit) : Prop where
  answers : unit.asReference? = some ⟨operationUnitName model .aggregate, .operation⟩
  derived :
    document.aggregateSupport = none → ∀ aggregate : Aggregate,
      unit.validatorsOf (aggregateKey aggregate) ≠ [] ↔
        ∃ composite ∈ document.composites, composite.name = model ++ aggregate.inputSuffix
  stated :
    ∀ table, document.aggregateSupport = some table → ∀ aggregate : Aggregate,
      unit.validatorsOf (aggregateKey aggregate) ≠ [] ↔
        (supportIn table model).has aggregate = true
  refers :
    ∀ aggregate : Aggregate, unit.validatorsOf (aggregateKey aggregate) ≠ [] →
      unit.validatorsOf (aggregateKey aggregate) =
        [.optional (.reference ⟨model ++ aggregate.inputSuffix, .object⟩)]
  planned :
    ∀ aggregate : Aggregate, ∀ composite ∈ document.composites,
      composite.name = model ++ aggregate.inputSuffix →
        compositeUnit context composite ∈ plannedUnits context document ∧
          (compositeUnit context composite).asReference? =
            some ⟨model ++ aggregate.inputSuffix, .object⟩

theorem hasAggregatesOf_operationUnit
    (settings : Settings)
    (document : Document)
    (model : Model) :
    HasAggregatesOf (Context.build settings document) document model.name
      (operationUnit (Context.build settings document) document model .aggregate) := by
  have validators := validatorsOf_aggregateKey (Context.build settings document) document model
  have present (aggregate : Aggregate) :
      (operationUnit (Context.build settings document) document model .aggregate).validatorsOf
          (aggregateKey aggregate) ≠ [] ↔
        (supportIn document.support model.name).has aggregate = true := by
    rw [validators]
    split <;> simp [*]
  refine ⟨rfl, ?_, ?_, ?_, ?_⟩
  · intro unstated aggregate
    rw [present, Document.support, unstated, Option.getD_none, has_derivedSupport_iff]
  · intro table isStated aggregate
    rw [present, Document.support, isStated, Option.getD_some]
  · intro aggregate occurs
    rw [validators, if_pos ((present aggregate).mp occurs)]
  · intro aggregate composite declared named
    constructor
    · exact mem_plannedUnits.mpr (.composite (mem_mergeComposites_of_declared declared))
    · rw [asReference?_compositeUnit, named, compositeUnitName_aggregateInput]

/-- The aggregate operation of each model of a document has a unit, whose arguments for aggregates
are those of the composites that the document declares, unless it states the support itself. -/
theorem exists_unit_hasAggregatesOf
    (settings : Settings)
    (document : Document)
    (model : Model)
    (member : model ∈ document.models) :
    ∃ unit,
      operationOutcome (Context.build settings document) document model.name .aggregate =
          .ok unit ∧
        HasAggregatesOf (Context.build settings document) document model.name unit := by
  have isKnown : (document.model? model.name).isSome := by
    rw [Document.model?, List.find?_isSome]
    exact ⟨model, member, beq_self_eq_true model.name⟩
  obtain ⟨first, found⟩ := Option.isSome_iff_exists.mp isKnown
  refine ⟨operationUnit (Context.build settings document) document first .aggregate, ?_, ?_⟩
  · rw [operationOutcome, found]
  · rw [← (model?_eq_some found).1]
    exact hasAggregatesOf_operationUnit settings document first

/-- A document with a model whose name another model's name extends, and with their aggregate
inputs in no order. -/
def visitDocument : Document where
  provider := .mongodb
  previewFeatures := []
  models := [⟨"Visit", []⟩, ⟨"VisitMin", []⟩]
  enums := []
  composites :=
    [⟨"VisitMinCountAggregateInput", []⟩, ⟨"VisitSumAggregateInput", []⟩,
      ⟨"VisitCountAggregateInput", []⟩]
  mappings := [⟨"Visit", [.aggregate], ["findRaw"]⟩]
  aggregateSupport := none

theorem exists_unit_hasAggregatesOf_visitDocument :
    (⟨"Visit", []⟩ : Model) ∈ visitDocument.models ∧
      ∃ unit,
        operationOutcome (Context.build .default visitDocument) visitDocument "Visit" .aggregate =
            .ok unit ∧
          unit.validatorsOf "_count" =
            [.optional (.reference ⟨"VisitCountAggregateInput", .object⟩)] ∧
          unit.validatorsOf "_min" = [] := by
  have member : (⟨"Visit", []⟩ : Model) ∈ visitDocument.models := List.mem_cons_self
  obtain ⟨unit, outcome, aggregates⟩ :=
    exists_unit_hasAggregatesOf .default visitDocument ⟨"Visit", []⟩ member
  have counts := (aggregates.derived rfl .count).mpr ⟨_, .tail _ (.tail _ (.head _)), rfl⟩
  have noMinimum : ¬ ∃ composite ∈ visitDocument.composites,
      composite.name = "Visit" ++ Aggregate.min.inputSuffix := by
    decide
  refine ⟨member, unit, outcome, aggregates.refers .count counts, ?_⟩
  exact not_not.mp fun occurs => noMinimum ((aggregates.derived rfl .min).mp occurs)

end Assembly

end ZodSchemas
