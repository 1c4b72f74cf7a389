import ZodSchemas.Assembly.Operation

namespace ZodSchemas

/-!
# Arguments of operations

The arguments of an operation are made of primitive calls and of references to
composites and enumerations: no operation refers to another one, and none
contains an expression without a written form.
-/

namespace Expr

/-- An expression of primitive calls and of references to composites and enumerations. -/
inductive Plain : Expr → Prop where
  | primitive (code : String) :
      Plain (.primitive code)
  | reference
      {target : Reference}
      (noOperation : target.kind ≠ .operation) :
      Plain (.reference target)
  | deferred
      {inner : Expr}
      {hostType : Option String}
      (plain : Plain inner) :
      Plain (.deferred inner hostType)
  | array
      {inner : Expr}
      (plain : Plain inner) :
      Plain (.array inner)
  | optional
      {inner : Expr}
      (plain : Plain inner) :
      Plain (.optional inner)
  | union
      {members : List Expr}
      (plain : ∀ member ∈ members, Plain member) :
      Plain (.union members)

/-- Fields with plain values. -/
def PlainFields (fields : List (String × Expr)) : Prop :=
  ∀ field ∈ fields, field.2.Plain

@[simp] theorem plainFields_nil :
    PlainFields [] :=
  List.forall_mem_nil _

@[simp] theorem plainFields_cons
    {name : String}
    {value : Expr}
    {rest : List (String × Expr)} :
    PlainFields ((name, value) :: rest) ↔ value.Plain ∧ PlainFields rest :=
  List.forall_mem_cons

@[simp] theorem plainFields_append
    {fields others : List (String × Expr)} :
    PlainFields (fields ++ others) ↔ PlainFields fields ∧ PlainFields others :=
  List.forall_mem_append

@[simp] theorem plain_optional
    {inner : Expr} :
    (Expr.optional inner).Plain ↔ inner.Plain :=
  ⟨fun | .optional plain => plain, .optional⟩

@[simp] theorem plain_array
    {inner : Expr} :
    (Expr.array inner).Plain ↔ inner.Plain :=
  ⟨fun | .array plain => plain, .array⟩

@[simp] theorem plain_union
    {members : List Expr} :
    (Expr.union members).Plain ↔ ∀ member ∈ members, member.Plain :=
  ⟨fun | .union plain => plain, .union⟩

end Expr

namespace Assembly

open Metadata

@[simp] theorem plain_object
    (name : String) :
    (object name).Plain :=
  .reference nofun

@[simp] theorem plain_oneOrMany
    (name : String) :
    (oneOrMany name).Plain := by
  simp [oneOrMany]

@[simp] theorem plain_number :
    number.Plain :=
  .primitive _

@[simp] theorem plain_truthValue :
    truthValue.Plain :=
  .primitive _

@[simp] theorem plain_fieldEnum
    (model : Model) :
    (fieldEnum model).Plain :=
  .reference nofun

theorem plainFields_projectionArguments
    (context : Context)
    (model : Model)
    (deferred : Bool) :
    Expr.PlainFields (projectionArguments context model deferred) := by
  have single (argument composite : String) :
      Expr.PlainFields [projectionArgument deferred argument composite] := by
    cases deferred with
    | false =>
        simp [projectionArgument]
    | true =>
        simp [projectionArgument, Expr.Plain.deferred]
  refine Expr.plainFields_append.mpr ⟨?_, ?_⟩
  · split
    · exact single _ _
    · exact Expr.plainFields_nil
  · split
    · exact single _ _
    · exact Expr.plainFields_nil

/-- The range of a search is given by composites and numbers. -/
theorem plainFields_rangeArguments
    (context : Context)
    (model : Model) :
    Expr.PlainFields (rangeArguments context model) := by
  simp [rangeArguments, pageArguments, ordering, condition, identity, takeArgument, skipArgument]

theorem plainFields_aggregateArguments
    (support : AggregateSupport)
    (model : Model) :
    Expr.PlainFields (aggregateArguments support model) := by
  intro argument member
  obtain ⟨aggregate, -, rfl⟩ := List.mem_map.mp member
  exact .optional (plain_object _)

/-- The arguments of every operation are plain. -/
theorem plainFields_arguments
    (context : Context)
    (support : AggregateSupport)
    (model : Model)
    (operation : Operation) :
    Expr.PlainFields (arguments context support model operation) := by
  have projections := plainFields_projectionArguments context model
  have range := plainFields_rangeArguments context model
  have aggregates := plainFields_aggregateArguments support model
  cases operation with
  | findFirst | findMany =>
      simp [arguments, projections, searchArguments, range]
  | aggregate =>
      simp [arguments, range, aggregates]
  | createMany =>
      rw [arguments]
      split <;> simp
  | findUnique | deleteOne | createOne | deleteMany | updateOne | updateMany | upsertOne
  | groupBy =>
      simp [arguments, projections, identityCondition, identity, condition, newData, changedData,
        takeArgument, skipArgument]

end Assembly

end ZodSchemas
