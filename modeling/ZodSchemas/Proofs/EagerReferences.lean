import ZodSchemas.Proofs.OperationArguments
import ZodSchemas.Proofs.Projections

namespace ZodSchemas

/-!
# Eager references

A reference is eager when no deferred binding encloses it.  The wrappers of a
field neither add nor hide one, so the eager references of a composite are those
of the alternatives of its fields, and a composite is referred to eagerly only
where the rule of deferral does not apply.  The arguments of an operation refer
to enumerations and composites only, and those of a bulk query, whose
projections are deferred, to no composites but conditions and orderings.
-/

namespace Expr

theorem mem_eagerAll
    {reference : Reference}
    {members : List Expr} :
    reference ∈ eagerAll members ↔ ∃ member ∈ members, reference ∈ member.eager := by
  induction members with
  | nil =>
      simp [eagerAll]
  | cons first rest inductionHypothesis =>
      simp [eagerAll, inductionHypothesis]

theorem mem_eagerFields
    {reference : Reference}
    {fields : List (String × Expr)} :
    reference ∈ eagerFields fields ↔ ∃ field ∈ fields, reference ∈ field.2.eager := by
  induction fields with
  | nil =>
      simp [eagerFields]
  | cons first rest inductionHypothesis =>
      simp [eagerFields, inductionHypothesis]

theorem eagerFields_append
    (fields others : List (String × Expr)) :
    eagerFields (fields ++ others) = eagerFields fields ++ eagerFields others := by
  induction fields with
  | nil =>
      rfl
  | cons first rest inductionHypothesis =>
      simp [eagerFields, inductionHypothesis]

/-- Optional wrappers hide no reference. -/
theorem eager_stripOptional
    (expr : Expr) :
    expr.stripOptional.eager = expr.eager := by
  induction expr using stripOptional.induct with
  | case1 inner inductionHypothesis =>
      rw [stripOptional, inductionHypothesis, eager]
  | case2 expr notOptional =>
      rw [stripOptional.eq_2 expr notOptional]

theorem Plain.kind_ne_operation
    {expr : Expr}
    (plain : expr.Plain)
    {reference : Reference}
    (refers : reference ∈ expr.eager) :
    reference.kind ≠ .operation := by
  induction plain with
  | primitive code =>
      contradiction
  | reference noOperation =>
      exact List.mem_singleton.mp refers ▸ noOperation
  | deferred =>
      contradiction
  | array plain inductionHypothesis | optional plain inductionHypothesis =>
      exact inductionHypothesis refers
  | union plain inductionHypothesis =>
      obtain ⟨member, inMembers, inMember⟩ := mem_eagerAll.mp refers
      exact inductionHypothesis member inMembers inMember

end Expr

/-- The references of a unit that no deferred binding encloses. -/
def SchemaUnit.eagerReferences (unit : SchemaUnit) : List Reference :=
  unit.expression.elim [] Expr.eager

namespace Assembly

open Metadata

/-- The wrappers of an alternative hide no reference. -/
theorem eager_wrapped
    (field : InputField)
    (alternative : TypeAlternative)
    (base : Expr) :
    (wrapped field alternative base).eager = base.eager := by
  unfold wrapped
  cases alternative.isList <;> cases field.isRequired <;> rfl

/-- Joining validators to a union hides no reference of theirs and adds none. -/
theorem mem_eager_unionOf
    {field : InputField}
    {alternatives : List Expr}
    {reference : Reference} :
    reference ∈ (unionOf field alternatives).eager ↔
      ∃ alternative ∈ alternatives, reference ∈ alternative.eager := by
  have members :
      reference ∈ Expr.eagerAll (alternatives.map Expr.stripOptional) ↔
        ∃ alternative ∈ alternatives, reference ∈ alternative.eager := by
    simp only [Expr.mem_eagerAll, List.mem_map, exists_exists_and_eq_and,
      Expr.eager_stripOptional]
  unfold unionOf
  cases field.isRequired <;> exact members

/-- The validator of a field has the eager references of its alternatives. -/
theorem mem_eager_combined?
    {field : InputField}
    {alternatives : List Expr}
    {joined : Expr}
    (combined : combined? field alternatives = some joined)
    {reference : Reference}
    (eager : reference ∈ joined.eager) :
    ∃ alternative ∈ alternatives, reference ∈ alternative.eager := by
  have unwrapped (base : Option Expr)
      (isJoined :
        (if field.isNullable then base.map .nullable else base) = some joined) :
      ∃ plain, base = some plain ∧ reference ∈ plain.eager := by
    split at isJoined
    · obtain ⟨plain, found, rfl⟩ := Option.map_eq_some_iff.mp isJoined
      exact ⟨plain, found, eager⟩
    · exact ⟨joined, isJoined, eager⟩
  obtain ⟨plain, isPlain, eagerPlain⟩ := unwrapped _ combined
  split at isPlain
  · contradiction
  · rename_i only
    cases isPlain
    exact ⟨plain, .head _, eagerPlain⟩
  · cases isPlain
    exact mem_eager_unionOf.mp eagerPlain

/-- What an alternative of a composite's field refers to without deferral. -/
inductive AlternativeReference (context : Context) (owner : String)
    (alternative : TypeAlternative) : Reference → Prop where
  | enumeration
      (kind : referenceKind? context alternative = some .enumeration) :
      AlternativeReference context owner alternative ⟨alternative.typeName, .enumeration⟩
  | bulkQuery
      (model : String)
      (kind : referenceKind? context alternative = some .operation) :
      AlternativeReference context owner alternative
        ⟨operationUnitName model .findMany, .operation⟩
  | composite
      (kind : referenceKind? context alternative = some .object)
      (prompt : isDeferred owner alternative = false) :
      AlternativeReference context owner alternative
        ⟨compositeUnitName context alternative.typeName, .object⟩

private theorem eager_of_scalar?
    {typeName : String}
    {base : Expr}
    (scalar : scalar? typeName = some base) :
    base.eager = [] := by
  unfold scalar? at scalar
  split at scalar
  · cases scalar
    rfl
  · obtain ⟨code, -, rfl⟩ := Option.map_eq_some_iff.mp scalar
    rfl

/-- The eager references of an alternative follow its kind. -/
theorem alternativeReference_of_eager
    {context : Context}
    {owner : String}
    {field : InputField}
    {alternative : TypeAlternative}
    {validator : Expr}
    (isValidator : alternative? context owner field alternative = some validator)
    {reference : Reference}
    (eager : reference ∈ validator.eager) :
    AlternativeReference context owner alternative reference := by
  unfold alternative? at isValidator
  split at isValidator
  · obtain ⟨base, scalar, rfl⟩ := Option.map_eq_some_iff.mp isValidator
    rw [eager_wrapped, eager_of_scalar? scalar] at eager
    contradiction
  · obtain ⟨base, refers, rfl⟩ := Option.map_eq_some_iff.mp isValidator
    rw [eager_wrapped] at eager
    obtain ⟨kind, isKind, rfl⟩ := Option.map_eq_some_iff.mp refers
    cases kind with
    | enumeration =>
        exact List.mem_singleton.mp eager ▸ .enumeration isKind
    | operation =>
        exact List.mem_singleton.mp eager ▸ .bulkQuery _ isKind
    | object =>
        simp only [compositeReference] at eager
        split at eager
        · contradiction
        · rename_i prompt
          exact List.mem_singleton.mp eager ▸
            .composite isKind (Bool.eq_false_iff.mpr prompt)

/-- Each eager reference of a composite belongs to an alternative of one of its fields. -/
theorem exists_alternative_of_eager
    {context : Context}
    {composite : Composite}
    {reference : Reference}
    (eager : reference ∈ (compositeUnit context composite).eagerReferences) :
    ∃ field ∈ composite.fields, ∃ alternative ∈ field.alternatives,
      AlternativeReference context composite.name alternative reference := by
  obtain ⟨entry, entryMember, inEntry⟩ := Expr.mem_eagerFields.mp eager
  obtain ⟨field, fieldMember, isEntry⟩ := List.mem_filterMap.mp entryMember
  obtain ⟨joined, combined, rfl⟩ := Option.map_eq_some_iff.mp isEntry
  obtain ⟨validator, validatorMember, inValidator⟩ := mem_eager_combined? combined inEntry
  obtain ⟨alternative, alternativeMember, isValidator⟩ := List.mem_filterMap.mp validatorMember
  exact ⟨field, fieldMember, alternative, alternativeMember,
    alternativeReference_of_eager isValidator inValidator⟩

theorem eagerReferences_enumUnit
    (enumType : EnumType) :
    (enumUnit enumType).eagerReferences = [] :=
  rfl

/-- What the names of the composites end in that choose and order the records of a bulk query. -/
def searchEndings : List String :=
  ["WhereInput", "WhereUniqueInput", "OrderByWithRelationInput",
    "OrderByWithRelationAndSearchRelevanceInput"]

/-- The references of a search: composites that choose and order records, and enumerations. -/
inductive SearchReference (model : String) : Reference → Prop where
  | composite
      {ending : String}
      (listed : ending ∈ searchEndings) :
      SearchReference model ⟨model ++ ending, .object⟩
  | enumeration (name : String) :
      SearchReference model ⟨name, .enumeration⟩

/-- The arguments of a search refer to nothing else. -/
theorem searchReference_of_eager
    {context : Context}
    {model : Model}
    {reference : Reference}
    (eager : reference ∈ Expr.eagerFields (searchArguments context model)) :
    SearchReference model.name reference := by
  have inOrdering (member : reference ∈ (ordering context model).eager) :
      SearchReference model.name reference := by
    have isOrdering :
        reference =
          ⟨model.name
            ++ (if context.ordersByRelevance then "OrderByWithRelationAndSearchRelevanceInput"
                else "OrderByWithRelationInput"), .object⟩ := by
      simpa [ordering, oneOrMany, object, Expr.eager, Expr.eagerAll] using member
    rw [isOrdering]
    exact .composite (by split <;> decide)
  obtain ⟨argument, member, inArgument⟩ := Expr.mem_eagerFields.mp eager
  simp only [searchArguments, rangeArguments, pageArguments, List.mem_append, List.mem_cons,
    List.not_mem_nil, or_false] at member
  rcases member with ((rfl | rfl) | rfl | rfl | rfl) | rfl
  · exact inOrdering inArgument
  · exact List.mem_singleton.mp inArgument ▸ .composite (by decide)
  · exact List.mem_singleton.mp inArgument ▸ .composite (by decide)
  · contradiction
  · contradiction
  · exact List.mem_singleton.mp inArgument ▸ .enumeration _

theorem eagerFields_projectionArguments_deferred
    (context : Context)
    (model : Model) :
    Expr.eagerFields (projectionArguments context model true) = [] := by
  unfold projectionArguments
  split <;> split <;> rfl

/-- A bulk query refers eagerly to what its search refers to. -/
theorem searchReference_of_bulkQuery
    {context : Context}
    {document : Document}
    {model : Model}
    {reference : Reference}
    (eager :
      reference ∈ (operationUnit context document model .findMany).eagerReferences) :
    SearchReference model.name reference := by
  change reference ∈
    Expr.eagerFields (projectionArguments context model true ++ searchArguments context model)
      at eager
  rw [Expr.eagerFields_append, eagerFields_projectionArguments_deferred, List.nil_append]
    at eager
  exact searchReference_of_eager eager

theorem kind_ne_operation_of_eager
    {context : Context}
    {document : Document}
    {model : Model}
    {operation : Operation}
    {reference : Reference}
    (eager :
      reference ∈ (operationUnit context document model operation).eagerReferences) :
    reference.kind ≠ .operation := by
  obtain ⟨argument, member, inArgument⟩ := Expr.mem_eagerFields.mp eager
  have plain :=
    plainFields_arguments context (modelSupport document model) model operation argument member
  exact plain.kind_ne_operation inArgument

end Assembly

end ZodSchemas
