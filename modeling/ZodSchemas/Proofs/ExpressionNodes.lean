import ZodSchemas.Assembly.Operation
import ZodSchemas.Proofs.FieldForms

namespace ZodSchemas

/-!
# Conditions on every node

What holds of every node of an expression is known from its leaves when wrappers
and unions cannot fail it.  A field's validator has such a condition everywhere
as soon as the types of its alternatives do, and the arguments of an operation
have it if primitive calls, references to composites and the one to the fields of
the model do.
-/

namespace Expr

theorem mem_walkFields
    {node : Expr}
    {fields : List (String × Expr)} :
    node ∈ walkFields fields ↔ ∃ field ∈ fields, node ∈ field.2.walk := by
  induction fields with
  | nil =>
      simp [walkFields]
  | cons first rest inductionHypothesis =>
      simp [walkFields, inductionHypothesis]

/-- A condition holds of every node of an expression. -/
def Everywhere (holds : Expr → Prop) (expr : Expr) : Prop :=
  ∀ node ∈ expr.walk, holds node

section

variable {holds : Expr → Prop}

@[simp] theorem everywhere_primitive
    {code : String} :
    (Expr.primitive code).Everywhere holds ↔ holds (.primitive code) := by
  simp [Everywhere, walk]

@[simp] theorem everywhere_json :
    Expr.json.Everywhere holds ↔ holds .json := by
  simp [Everywhere, walk]

@[simp] theorem everywhere_reference
    {target : Reference} :
    (Expr.reference target).Everywhere holds ↔ holds (.reference target) := by
  simp [Everywhere, walk]

@[simp] theorem everywhere_enumeration
    {values : List String} :
    (Expr.enumeration values).Everywhere holds ↔ holds (.enumeration values) := by
  simp [Everywhere, walk]

@[simp] theorem everywhere_deferred
    {inner : Expr}
    {hostType : Option String} :
    (Expr.deferred inner hostType).Everywhere holds ↔
      holds (.deferred inner hostType) ∧ inner.Everywhere holds := by
  simp [Everywhere, walk]

@[simp] theorem everywhere_array
    {inner : Expr} :
    (Expr.array inner).Everywhere holds ↔ holds (.array inner) ∧ inner.Everywhere holds := by
  simp [Everywhere, walk]

@[simp] theorem everywhere_optional
    {inner : Expr} :
    (Expr.optional inner).Everywhere holds ↔
      holds (.optional inner) ∧ inner.Everywhere holds := by
  simp [Everywhere, walk]

@[simp] theorem everywhere_nullable
    {inner : Expr} :
    (Expr.nullable inner).Everywhere holds ↔
      holds (.nullable inner) ∧ inner.Everywhere holds := by
  simp [Everywhere, walk]

@[simp] theorem everywhere_union
    {members : List Expr} :
    (Expr.union members).Everywhere holds ↔
      holds (.union members) ∧ ∀ member ∈ members, member.Everywhere holds := by
  simp only [Everywhere, walk, List.forall_mem_cons, mem_walkAll]
  constructor
  · rintro ⟨atNode, below⟩
    exact ⟨atNode, fun member isMember node inside => below node ⟨member, isMember, inside⟩⟩
  · rintro ⟨atNode, below⟩
    exact ⟨atNode, fun node ⟨member, isMember, inside⟩ => below member isMember node inside⟩

/-- The values of some fields have a condition everywhere. -/
def FieldsHave (holds : Expr → Prop) (fields : List (String × Expr)) : Prop :=
  ∀ field ∈ fields, field.2.Everywhere holds

@[simp] theorem fieldsHave_nil :
    FieldsHave holds [] :=
  List.forall_mem_nil _

@[simp] theorem fieldsHave_cons
    {name : String}
    {value : Expr}
    {rest : List (String × Expr)} :
    FieldsHave holds ((name, value) :: rest) ↔ value.Everywhere holds ∧ FieldsHave holds rest :=
  List.forall_mem_cons

@[simp] theorem fieldsHave_append
    {fields others : List (String × Expr)} :
    FieldsHave holds (fields ++ others) ↔ FieldsHave holds fields ∧ FieldsHave holds others :=
  List.forall_mem_append

@[simp] theorem everywhere_object
    {fields : List (String × Expr)}
    {strict : Bool} :
    (Expr.object fields strict).Everywhere holds ↔
      holds (.object fields strict) ∧ FieldsHave holds fields := by
  simp only [Everywhere, FieldsHave, walk, List.forall_mem_cons, mem_walkFields]
  constructor
  · rintro ⟨atNode, below⟩
    exact ⟨atNode, fun field isField node inside => below node ⟨field, isField, inside⟩⟩
  · rintro ⟨atNode, below⟩
    exact ⟨atNode, fun node ⟨field, isField, inside⟩ => below field isField node inside⟩

end

/-- A condition that no wrapper and no union fails. -/
structure HoldsOfWrappers (holds : Expr → Prop) : Prop where
  deferred : ∀ inner hostType, holds (.deferred inner hostType)
  array : ∀ inner, holds (.array inner)
  optional : ∀ inner, holds (.optional inner)
  nullable : ∀ inner, holds (.nullable inner)
  union : ∀ members, holds (.union members)

end Expr

namespace Assembly

open Metadata ZodSchemas.Expr

section

variable {context : Context} {owner : String} {holds : Expr → Prop}

/-- What the types of an alternative become has a condition everywhere. -/
def HoldsOfType
    (context : Context)
    (owner : String)
    (holds : Expr → Prop)
    (alternative : TypeAlternative) : Prop :=
  ∀ base, BaseOf context owner alternative base → base.Everywhere holds

theorem MemberOf.everywhere
    (ofWrappers : HoldsOfWrappers holds)
    {alternative : TypeAlternative}
    (ofType : HoldsOfType context owner holds alternative)
    {member : Expr}
    (isMember : MemberOf context owner alternative member) :
    member.Everywhere holds := by
  cases isMember with
  | single notList isBase =>
      exact ofType _ isBase
  | list isList isBase =>
      exact everywhere_array.mpr ⟨ofWrappers.array _, ofType _ isBase⟩

theorem everywhere_of_members
    (ofWrappers : HoldsOfWrappers holds)
    {alternatives : List TypeAlternative}
    (ofTypes : ∀ alternative ∈ alternatives, HoldsOfType context owner holds alternative)
    {members : List Expr}
    (areMembers : List.Forall₂ (MemberOf context owner) alternatives members) :
    ∀ member ∈ members, member.Everywhere holds := by
  induction areMembers with
  | nil =>
      exact List.forall_mem_nil _
  | cons isMember areMembers inductionHypothesis =>
      rw [List.forall_mem_cons] at ofTypes
      exact List.forall_mem_cons.mpr
        ⟨isMember.everywhere ofWrappers ofTypes.1, inductionHypothesis ofTypes.2⟩

theorem CoreOf.everywhere
    (ofWrappers : HoldsOfWrappers holds)
    {alternatives : List TypeAlternative}
    (ofTypes : ∀ alternative ∈ alternatives, HoldsOfType context owner holds alternative)
    {core : Expr}
    (isCore : CoreOf context owner alternatives core) :
    core.Everywhere holds := by
  cases isCore with
  | only isMember =>
      exact isMember.everywhere ofWrappers (ofTypes _ (.head _))
  | union several areMembers =>
      exact everywhere_union.mpr
        ⟨ofWrappers.union _, everywhere_of_members ofWrappers ofTypes areMembers⟩

/-- The validator of a field has a condition everywhere that the types of its alternatives have
everywhere. -/
theorem everywhere_of_fieldOf?
    (ofWrappers : HoldsOfWrappers holds)
    {field : InputField}
    (ofTypes : ∀ alternative ∈ field.alternatives, HoldsOfType context owner holds alternative)
    {entry : String × Expr}
    (isEntry : fieldOf? context owner field = some entry) :
    entry.2.Everywhere holds := by
  rcases fieldOf?_cases context owner field with ⟨-, noEntry⟩ | ⟨core, isCore, hasEntry⟩
  · rw [noEntry] at isEntry
    contradiction
  · obtain rfl := Option.some.inj (hasEntry.symm.trans isEntry)
    have inCore : core.Everywhere holds :=
      isCore.everywhere ofWrappers fun alternative member =>
        ofTypes alternative (List.mem_of_mem_filter member)
    have inOptional : (optionalFor field core).Everywhere holds := by
      unfold optionalFor
      split
      · exact inCore
      · exact everywhere_optional.mpr ⟨ofWrappers.optional _, inCore⟩
    unfold nullableFor
    split
    · exact everywhere_nullable.mpr ⟨ofWrappers.nullable _, inOptional⟩
    · exact inOptional

/-- The entries of a composite have a condition everywhere that the types of all its alternatives
have everywhere. -/
theorem fieldsHave_compositeFields
    (ofWrappers : HoldsOfWrappers holds)
    {composite : Composite}
    (ofTypes :
      ∀ field ∈ composite.fields, ∀ alternative ∈ field.alternatives,
        HoldsOfType context composite.name holds alternative) :
    FieldsHave holds (compositeFields context composite) := by
  intro entry member
  obtain ⟨field, isField, isEntry⟩ := List.mem_filterMap.mp member
  exact everywhere_of_fieldOf? ofWrappers (ofTypes field isField) isEntry

end

section

variable {holds : Expr → Prop}

theorem fieldsHave_projectionArguments
    (ofWrappers : HoldsOfWrappers holds)
    (ofComposites : ∀ name, holds (object name))
    (context : Context)
    (model : Model)
    (deferred : Bool) :
    FieldsHave holds (projectionArguments context model deferred) := by
  have inComposite (name : String) : (object name).Everywhere holds :=
    everywhere_reference.mpr (ofComposites name)
  have single (condition : Bool) (argument composite : String) :
      FieldsHave holds
        (if condition then [projectionArgument deferred argument composite] else []) := by
    cases condition <;> cases deferred <;>
      simp [projectionArgument, ofWrappers.optional, ofWrappers.deferred, inComposite]
  exact fieldsHave_append.mpr ⟨single _ _ _, single _ _ _⟩

/-- The arguments of an operation have a condition everywhere that primitive calls, references to
composites and the one to the fields of the model have. -/
theorem fieldsHave_arguments
    (ofWrappers : HoldsOfWrappers holds)
    (ofPrimitives : ∀ code, holds (.primitive code))
    (ofComposites : ∀ name, holds (object name))
    {model : Model}
    (ofFieldEnum : holds (fieldEnum model))
    (context : Context)
    (support : AggregateSupport)
    (operation : Operation) :
    FieldsHave holds (arguments context support model operation) := by
  have inNumber : number.Everywhere holds := everywhere_primitive.mpr (ofPrimitives _)
  have inTruthValue : truthValue.Everywhere holds := everywhere_primitive.mpr (ofPrimitives _)
  have inComposite (name : String) : (object name).Everywhere holds :=
    everywhere_reference.mpr (ofComposites name)
  have inFieldEnum : (fieldEnum model).Everywhere holds := everywhere_reference.mpr ofFieldEnum
  have inChoice (name : String) : (oneOrMany name).Everywhere holds := by
    simp [oneOrMany, ofWrappers.union, ofWrappers.array, inComposite]
  have projections := fieldsHave_projectionArguments ofWrappers ofComposites context model
  have range : FieldsHave holds (rangeArguments context model) := by
    simp [rangeArguments, pageArguments, ordering, condition, identity, takeArgument, skipArgument,
      ofWrappers.optional, inNumber, inComposite, inChoice]
  have aggregates : FieldsHave holds (aggregateArguments support model) := by
    intro argument member
    obtain ⟨aggregate, -, rfl⟩ := List.mem_map.mp member
    exact everywhere_optional.mpr ⟨ofWrappers.optional _, inComposite _⟩
  cases operation with
  | findFirst | findMany =>
      simp [arguments, projections, searchArguments, range, ofWrappers.optional, ofWrappers.array,
        inFieldEnum]
  | aggregate =>
      simp [arguments, range, aggregates]
  | createMany =>
      rw [arguments]
      split <;> simp [ofWrappers.optional, inChoice, inTruthValue]
  | findUnique | deleteOne | createOne | deleteMany | updateOne | updateMany | upsertOne
  | groupBy =>
      simp [arguments, projections, identityCondition, identity, condition, newData, changedData,
        takeArgument, skipArgument, ofWrappers.optional, ofWrappers.array, ofWrappers.union,
        inNumber, inComposite, inChoice, inFieldEnum]

end

end Assembly

end ZodSchemas
