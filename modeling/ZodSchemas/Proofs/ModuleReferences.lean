import ZodSchemas.Proofs.ExpressionNodes
import ZodSchemas.Proofs.ModuleImports
import ZodSchemas.Proofs.Projections
import ZodSchemas.Proofs.UnitCollisions

namespace ZodSchemas

/-!
# References of modules

A composite refers to composites, to enumerations by the names of types, and to
no operations but bulk queries.  An operation refers to composites and to the
enumeration of its model's fields, so each of its references has a symbol of its
own, and it has no part of arbitrary JSON.
-/

namespace Expr

/-- What a node refers to, if it is a reference, has a property. -/
def TargetHas (valid : Reference → Prop) (node : Expr) : Prop :=
  ∀ target, node = .reference target → valid target

theorem targetHas_of_wrappers
    (valid : Reference → Prop) :
    HoldsOfWrappers (TargetHas valid) :=
  ⟨nofun, nofun, nofun, nofun, nofun⟩

@[simp] theorem targetHas_reference
    {valid : Reference → Prop}
    {target : Reference} :
    TargetHas valid (.reference target) ↔ valid target := by
  simp [TargetHas]

theorem mem_references_iff_walk
    {expr : Expr}
    {target : Reference} :
    target ∈ expr.references ↔ .reference target ∈ expr.walk := by
  rw [references, mem_firstOccurrences, occurrences, nodes_eq_walk, List.mem_filterMap]
  constructor
  · rintro ⟨node, inside, isTarget⟩
    cases node <;> cases isTarget
    exact inside
  · intro inside
    exact ⟨_, inside, rfl⟩

/-- A node that is not the shared validator for arbitrary JSON. -/
def IsNotJson (node : Expr) : Prop :=
  node.isJson = false

theorem usesJson_object_eq_false
    {fields : List (String × Expr)}
    {strict : Bool}
    (noJson : FieldsHave IsNotJson fields) :
    (Expr.object fields strict).usesJson = false := by
  have everywhere : (Expr.object fields strict).Everywhere IsNotJson :=
    everywhere_object.mpr ⟨rfl, noJson⟩
  rw [usesJson, nodes_eq_walk, List.any_eq_false]
  exact fun node inside => Bool.eq_false_iff.mp (everywhere node inside)

theorem firstOccurrences_eq_distinct
    [DecidableEq α]
    (items : List α) :
    firstOccurrences items = Metadata.distinct items := by
  induction items with
  | nil =>
      rfl
  | cons first rest inductionHypothesis =>
      rw [firstOccurrences, Metadata.distinct, inductionHypothesis]

end Expr

/-- What the fields of an object refer to is what its unit imports, itself excepted. -/
theorem SchemaUnit.forall_mem_references
    {unit : SchemaUnit}
    {fields : List (String × Expr)}
    {strict : Bool}
    (isExpression : unit.expression = some (.object fields strict))
    (valid : Reference → Prop)
    (inFields : Expr.FieldsHave (Expr.TargetHas valid) fields) :
    ∀ reference ∈ unit.references, some reference ≠ unit.selfReference? ∧ valid reference := by
  intro reference member
  simp only [references, isExpression, List.mem_filter, decide_eq_true_eq] at member
  have everywhere : (Expr.object fields strict).Everywhere (Expr.TargetHas valid) :=
    Expr.everywhere_object.mpr ⟨by simp [Expr.TargetHas], inFields⟩
  exact ⟨member.2,
    everywhere _ (Expr.mem_references_iff_walk.mp member.1) reference rfl⟩

theorem SchemaUnit.nodup_references
    (unit : SchemaUnit) :
    unit.references.Nodup := by
  unfold references
  split
  · exact .nil
  · rw [Expr.references, Expr.firstOccurrences_eq_distinct]
    exact (Metadata.nodup_distinct _).filter _

namespace Assembly

open Metadata

/-- A reference of a composite: enumerations have names, and operations are bulk queries. -/
def IsCompositeReference (reference : Reference) : Prop :=
  match reference.kind with
  | .object => True
  | .enumeration => reference.name ≠ ""
  | .operation => ∃ model, reference.name = operationUnitName model .findMany

/-- The types of alternatives have names, as in every document that is read. -/
def NamesTypes (composite : Composite) : Prop :=
  ∀ field ∈ composite.fields, ∀ alternative ∈ field.alternatives, alternative.typeName ≠ ""

theorem ProjectionOf.namesTypes
    {context : Context}
    {model : Model}
    {composite : Composite}
    (projection : ProjectionOf context model composite) :
    NamesTypes composite := by
  have extended (text : String) {ending : String} (filled : ending ≠ "") : text ++ ending ≠ "" := by
    simp [filled]
  intro field fieldMember alternative member
  cases projection.alternative fieldMember member with
  | flag =>
      decide
  | bulkQuery | defaults | selection | inclusion | countSelection | countArguments =>
      exact extended _ (by decide)

/-- All composites name the types of their alternatives if the declared ones do. -/
theorem namesTypes_of_merged
    {context : Context}
    {document : Document}
    (declaredNames : ∀ composite ∈ document.composites, NamesTypes composite)
    {composite : Composite}
    (merged : composite ∈ allComposites context document) :
    NamesTypes composite := by
  rcases mem_or_mem_of_mem_mergeComposites merged with declared | derived
  · exact declaredNames composite declared
  · obtain ⟨model, -, projection⟩ := mem_projections derived
    exact projection.namesTypes

theorem isCompositeReference_of_type
    {context : Context}
    {owner : String}
    {alternative : TypeAlternative}
    (named : alternative.typeName ≠ "") :
    HoldsOfType context owner (Expr.TargetHas IsCompositeReference) alternative := by
  intro base isBase
  cases isBase with
  | json | primitive =>
      simp [Expr.TargetHas]
  | enumeration =>
      exact Expr.everywhere_reference.mpr (Expr.targetHas_reference.mpr named)
  | bulkQuery =>
      exact Expr.everywhere_reference.mpr (Expr.targetHas_reference.mpr ⟨_, rfl⟩)
  | composite =>
      exact Expr.everywhere_reference.mpr (Expr.targetHas_reference.mpr trivial)
  | deferred =>
      refine Expr.everywhere_deferred.mpr ⟨nofun, ?_⟩
      exact Expr.everywhere_reference.mpr (Expr.targetHas_reference.mpr trivial)

theorem references_compositeUnit
    {context : Context}
    {composite : Composite}
    (named : NamesTypes composite) :
    ∀ reference ∈ (compositeUnit context composite).references,
      some reference ≠ (compositeUnit context composite).selfReference? ∧
        IsCompositeReference reference :=
  SchemaUnit.forall_mem_references rfl IsCompositeReference <|
    fieldsHave_compositeFields (Expr.targetHas_of_wrappers _) fun field isField alternative member =>
      isCompositeReference_of_type (named field isField alternative member)

theorem references_enumUnit
    (enumType : EnumType) :
    (enumUnit enumType).references = [] := by
  change (Expr.enumeration enumType.values).references.filter _ = []
  rw [Expr.references_enumeration, List.filter_nil]

/-- A reference of an operation on a model: to a composite, or to the fields of the model. -/
def IsArgumentReference (model : Model) (reference : Reference) : Prop :=
  reference.kind = .object ∨ reference = ⟨model.name ++ "ScalarFieldEnum", .enumeration⟩

theorem references_operationUnit
    (context : Context)
    (document : Document)
    (model : Model)
    (operation : Operation) :
    ∀ reference ∈ (operationUnit context document model operation).references,
      IsArgumentReference model reference := by
  have inFields :
      Expr.FieldsHave (Expr.TargetHas (IsArgumentReference model))
        (arguments context (modelSupport document model) model operation) :=
    fieldsHave_arguments (Expr.targetHas_of_wrappers _) nofun
      (fun _ => Expr.targetHas_reference.mpr (.inl rfl))
      (Expr.targetHas_reference.mpr (.inr rfl)) _ _ _
  intro reference member
  exact (SchemaUnit.forall_mem_references rfl _ inFields reference member).2

theorem usesJson_operationUnit
    (context : Context)
    (document : Document)
    (model : Model)
    (operation : Operation) :
    (operationUnit context document model operation).usesJson = false := by
  have ofWrappers : Expr.HoldsOfWrappers Expr.IsNotJson :=
    ⟨fun _ _ => rfl, fun _ => rfl, fun _ => rfl, fun _ => rfl, fun _ => rfl⟩
  have inArguments :
      Expr.FieldsHave Expr.IsNotJson
        (arguments context (modelSupport document model) model operation) :=
    fieldsHave_arguments ofWrappers (fun _ => rfl) (fun _ => rfl) rfl _ _ _
  change Expr.usesJson (.object _ false) = false
  exact Expr.usesJson_object_eq_false inArguments

/-- The enumeration of the fields of a model is called like no composite with its mark and like no
operation. -/
theorem fieldEnumName_ne
    {model other : String}
    {ending : String}
    (apart :
      ¬ (ending.toList <:+ "ScalarFieldEnum".toList ∨ "ScalarFieldEnum".toList <:+ ending.toList)) :
    model ++ "ScalarFieldEnum" ≠ other ++ ending := by
  intro same
  have ends : ending.toList <:+ (model ++ "ScalarFieldEnum").toList :=
    same ▸ Text.suffix_append other ending
  exact apart (Text.endings_comparable ends (Text.suffix_append model "ScalarFieldEnum"))

/-- The symbol of a reference of an operation tells the reference. -/
theorem IsArgumentReference.eq_of_symbol_eq
    {model : Model}
    {reference other : Reference}
    (valid : IsArgumentReference model reference)
    (otherValid : IsArgumentReference model other)
    (same : reference.symbol = other.symbol) :
    reference = other := by
  have apart (name : String) :
      Reference.symbol ⟨model.name ++ "ScalarFieldEnum", .enumeration⟩ ≠
        Reference.symbol ⟨name, .object⟩ := by
    rw [Ne, Reference.symbol_eq_symbol_object_iff (by decide)]
    exact fieldEnumName_ne (by decide)
  rcases valid with isComposite | rfl <;> rcases otherValid with otherComposite | rfl
  · exact Reference.eq_of_symbol_eq (isComposite.trans otherComposite.symm) same
  · obtain ⟨name, kind⟩ := reference
    obtain rfl : kind = .object := isComposite
    exact (apart name same.symm).elim
  · obtain ⟨name, kind⟩ := other
    obtain rfl : kind = .object := otherComposite
    exact (apart name same).elim
  · rfl

/-- No reference of an operation has the symbol of an operation. -/
theorem IsArgumentReference.symbol_ne_operation
    {model : Model}
    {reference : Reference}
    (valid : IsArgumentReference model reference)
    (owner : String)
    (operation : Operation) :
    reference.symbol ≠ Reference.symbol ⟨operationUnitName owner operation, .operation⟩ := by
  rcases valid with isComposite | rfl
  · obtain ⟨name, kind⟩ := reference
    obtain rfl : kind = .object := isComposite
    rw [Ne, eq_comm, Reference.symbol_eq_symbol_object_iff (by decide)]
    exact operationUnitName_ne_mark
  · rw [Ne, Reference.symbol_enumeration_eq_symbol_operation_iff]
    exact fieldEnumName_ne (by cases operation <;> decide)

end Assembly

end ZodSchemas
