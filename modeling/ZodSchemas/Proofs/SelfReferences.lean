import ZodSchemas.Proofs.EagerReferences
import ZodSchemas.Proofs.PlannedUnits

namespace ZodSchemas

/-!
# References of a composite to itself

While the module of a composite is evaluated its own symbol is not there yet, and
no import brings it, so a reference to it has to wait.  Whether a reference waits
is decided by the names of the metadata, but what it refers to by the names of
the units, and the arguments of a raw operation change their name in between.  So
a composite refers to itself too early exactly if one of its fields has it under
another name and not from the host.
-/

/-- Whether each reference of a unit to itself waits until it is used. -/
def SchemaUnit.DefersItself (unit : SchemaUnit) : Prop :=
  ∀ reference ∈ unit.eagerReferences, unit.selfReference? ≠ some reference

namespace Assembly

open Metadata

/-- An alternative that refers to the unit of its owner by another name, without waiting. -/
structure IsPromptAlias (context : Context) (owner : String) (alternative : TypeAlternative) :
    Prop where
  kind : referenceKind? context alternative = some .object
  otherName : alternative.typeName ≠ owner
  sameUnit : compositeUnitName context alternative.typeName = compositeUnitName context owner
  notFromHost : alternative.origin ≠ some hostOrigin

/-- The validator of a field keeps the eager references of its alternatives. -/
theorem exists_combined?_of_eager
    {field : InputField}
    {alternatives : List Expr}
    {validator : Expr}
    (member : validator ∈ alternatives)
    {reference : Reference}
    (eager : reference ∈ validator.eager) :
    ∃ joined, combined? field alternatives = some joined ∧ reference ∈ joined.eager := by
  have wrapped (joined : Expr) (inJoined : reference ∈ joined.eager) :
      ∃ whole,
        (if field.isNullable then (some joined).map Expr.nullable else some joined) = some whole ∧
          reference ∈ whole.eager := by
    cases field.isNullable with
    | true =>
        exact ⟨.nullable joined, rfl, inJoined⟩
    | false =>
        exact ⟨joined, rfl, inJoined⟩
  rcases alternatives with _ | ⟨only, _ | ⟨second, others⟩⟩
  · contradiction
  · obtain rfl := List.mem_singleton.mp member
    exact wrapped validator eager
  · exact wrapped _ (mem_eager_unionOf.mpr ⟨validator, member, eager⟩)

/-- A composite keeps the eager references of the alternatives of its fields. -/
theorem mem_eagerReferences_of_alternative
    {context : Context}
    {composite : Composite}
    {field : InputField}
    (fieldMember : field ∈ composite.fields)
    {alternative : TypeAlternative}
    (alternativeMember : alternative ∈ field.alternatives)
    {validator : Expr}
    (isValidator : alternative? context composite.name field alternative = some validator)
    {reference : Reference}
    (eager : reference ∈ validator.eager) :
    reference ∈ (compositeUnit context composite).eagerReferences := by
  have validatorMember :
      validator ∈
        field.alternatives.filterMap (alternative? context composite.name field) :=
    List.mem_filterMap.mpr ⟨alternative, alternativeMember, isValidator⟩
  obtain ⟨joined, combined, inJoined⟩ := exists_combined?_of_eager validatorMember eager
  have isEntry : fieldOf? context composite.name field = some (field.name, joined) := by
    rw [fieldOf?, fieldExpr?, combined, Option.map_some]
  exact Expr.mem_eagerFields.mpr
    ⟨(field.name, joined), List.mem_filterMap.mpr ⟨field, fieldMember, isEntry⟩, inJoined⟩

/-- The validator of an alternative that refers to a composite without waiting. -/
theorem alternative?_of_prompt
    {context : Context}
    {owner : String}
    (field : InputField)
    {alternative : TypeAlternative}
    (kind : referenceKind? context alternative = some .object)
    (prompt : isDeferred owner alternative = false) :
    alternative? context owner field alternative =
      some (wrapped field alternative
        (.reference ⟨compositeUnitName context alternative.typeName, .object⟩)) := by
  have notScalar : alternative.isScalar = false := by
    unfold referenceKind? at kind
    unfold TypeAlternative.isScalar
    cases place : alternative.location with
    | inputObjectTypes =>
        rfl
    | scalar | enumTypes | fieldRefTypes =>
        simp [place] at kind
  simp [alternative?, notScalar, referenceAlternative?, referenceBase?, kind, compositeReference,
    prompt]

theorem IsPromptAlias.prompt
    {context : Context}
    {owner : String}
    {alternative : TypeAlternative}
    (aliased : IsPromptAlias context owner alternative) :
    isDeferred owner alternative = false := by
  simp [isDeferred, aliased.otherName, aliased.notFromHost]

theorem selfReference?_compositeUnit
    (context : Context)
    (composite : Composite) :
    (compositeUnit context composite).selfReference? =
      some ⟨compositeUnitName context composite.name, .object⟩ :=
  asReference?_compositeUnit context composite

/-- A composite defers itself exactly if no alternative is a prompt alias of it. -/
theorem defersItself_iff
    {context : Context}
    {composite : Composite} :
    (compositeUnit context composite).DefersItself ↔
      ∀ field ∈ composite.fields, ∀ alternative ∈ field.alternatives,
        ¬ IsPromptAlias context composite.name alternative := by
  constructor
  · intro defers field fieldMember alternative alternativeMember aliased
    have isValidator := alternative?_of_prompt field aliased.kind aliased.prompt
    have eager :
        ⟨compositeUnitName context composite.name, .object⟩ ∈
          (compositeUnit context composite).eagerReferences := by
      refine mem_eagerReferences_of_alternative fieldMember alternativeMember isValidator ?_
      rw [eager_wrapped, aliased.sameUnit]
      exact .head _
    exact defers _ eager (selfReference?_compositeUnit context composite)
  · intro noAlias reference eager isSelf
    rw [selfReference?_compositeUnit, Option.some.injEq] at isSelf
    obtain ⟨field, fieldMember, alternative, alternativeMember, refers⟩ :=
      exists_alternative_of_eager eager
    cases refers with
    | enumeration | bulkQuery =>
        simp at isSelf
    | composite kind prompt =>
        rw [isDeferred, Bool.or_eq_false_iff, beq_eq_false_iff_ne, beq_eq_false_iff_ne] at prompt
        exact noAlias field fieldMember alternative alternativeMember
          ⟨kind, prompt.1, (congrArg Reference.name isSelf).symm, prompt.2⟩

/-- Where no composite is renamed, none has two names. -/
theorem not_isPromptAlias_of_unrenamed
    {context : Context}
    (unrenamed : context.rawOperations = [])
    (owner : String)
    (alternative : TypeAlternative) :
    ¬ IsPromptAlias context owner alternative := by
  have keepsName (name : String) : compositeUnitName context name = name := by
    have notRenamed : context.rawOperation? name = none := by
      simp [Context.rawOperation?, unrenamed]
    rw [compositeUnitName, notRenamed]
  intro aliased
  have sameName := aliased.sameUnit
  rw [keepsName, keepsName] at sameName
  exact aliased.otherName sameName

/-- Raw operations are renamed for document databases that list some. -/
theorem rawOperations_build_eq_nil
    {document : Document}
    (noRaw :
      document.provider ≠ .mongodb ∨ ∀ mapping ∈ document.mappings, mapping.rawOperations = [])
    (settings : Settings) :
    (Context.build settings document).rawOperations = [] := by
  by_cases isDocumentStore : document.provider = .mongodb
  · have noOperations : document.mappings.flatMap (·.rawOperations) = [] :=
      List.flatMap_eq_nil_iff.mpr (noRaw.resolve_left (not_not_intro isDocumentStore))
    rw [Context.build, if_pos isDocumentStore, rawOperationTable, noOperations]
    rfl
  · rw [Context.build, if_neg isDocumentStore]

/-- In the context of any settings and document, every reference of a composite to itself waits
exactly if no alternative refers to it by another name without coming from the host.  Other names
come from raw operations alone, so in a document without them every such reference waits. -/
theorem defersItself_iff_no_promptAlias
    (settings : Settings)
    (document : Document)
    (composite : Composite) :
    ((compositeUnit (.build settings document) composite).DefersItself ↔
        ∀ field ∈ composite.fields, ∀ alternative ∈ field.alternatives,
          ¬ IsPromptAlias (.build settings document) composite.name alternative) ∧
      (document.provider ≠ .mongodb ∨
          (∀ mapping ∈ document.mappings, mapping.rawOperations = []) →
        (compositeUnit (.build settings document) composite).DefersItself) := by
  refine ⟨defersItself_iff, fun noRaw => defersItself_iff.mpr fun _ _ alternative _ => ?_⟩
  exact not_isPromptAlias_of_unrenamed (rawOperations_build_eq_nil noRaw settings) _ alternative

/-- A document that lists a raw operation, for a database with these operations or another one. -/
def rawDocument (provider : Provider) : Document where
  provider := provider
  previewFeatures := []
  models := [⟨"User", []⟩]
  enums := []
  composites := []
  mappings := [⟨"User", [], ["findRaw"]⟩]
  aggregateSupport := none

/-- A composite with the name of the unit that the arguments of a raw operation become, which
refers to these arguments and to itself. -/
def rawArguments : Composite where
  name := "UserFindRaw"
  fields :=
    [⟨"nested", true, false,
      [⟨"findUserRaw", false, .inputObjectTypes, none⟩,
        ⟨"UserFindRaw", true, .inputObjectTypes, none⟩]⟩]

theorem defersItself_iff_no_promptAlias_rawArguments :
    (rawDocument .postgresql).provider ≠ .mongodb ∧
      (compositeUnit (.build .default (rawDocument .postgresql)) rawArguments).DefersItself := by
  have noRaw : (rawDocument .postgresql).provider ≠ .mongodb := by
    decide
  exact ⟨noRaw, (defersItself_iff_no_promptAlias .default _ rawArguments).2 (.inl noRaw)⟩

/-- Where the arguments are renamed, the composite refers to its own unit under both names, and
only the reference under its own name waits. -/
theorem not_defersItself_rawArguments :
    (compositeUnit (.build .default (rawDocument .mongodb)) rawArguments).selfReference? =
        some ⟨"UserFindRaw", .object⟩ ∧
      (compositeUnit (.build .default (rawDocument .mongodb)) rawArguments).eagerReferences =
        [⟨"UserFindRaw", .object⟩] ∧
      ¬ (compositeUnit (.build .default (rawDocument .mongodb)) rawArguments).DefersItself := by
  have isSelf :
      (compositeUnit (.build .default (rawDocument .mongodb)) rawArguments).selfReference? =
        some ⟨"UserFindRaw", .object⟩ := by
    decide +kernel
  have eager :
      (compositeUnit (.build .default (rawDocument .mongodb)) rawArguments).eagerReferences =
        [⟨"UserFindRaw", .object⟩] := by
    decide +kernel
  exact ⟨isSelf, eager, fun defers => defers _ (eager ▸ .head _) isSelf⟩

end Assembly

end ZodSchemas
