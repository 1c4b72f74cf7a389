import ZodSchemas.Proofs.FieldForms
import ZodSchemas.Proofs.StructuralChecks

namespace ZodSchemas

/-!
# Fields that are left out

The check of composites foresees from the locations of a field's alternatives
that assembly leaves the field out.  What it foresees comes true, because no
alternative that names a field has a validator.  It says nothing of a field that
names scalars and has no validator for any of them, although such a field is
left out as well, so remarks and omissions agree on all other fields.
-/

namespace Assembly

open Metadata

/-- An alternative without a validator names a scalar that has none, or a field. -/
theorem isUsable_eq_false_iff
    {alternative : TypeAlternative} :
    isUsable alternative = false ↔
      alternative.location = .scalar ∧ scalar? alternative.typeName = none ∨
        alternative.location = .fieldRefTypes := by
  cases place : alternative.location with
  | scalar =>
      rcases scalar?_cases .default "" place with
        ⟨unusable, noValidator⟩ | ⟨usable, base, -, validator⟩
      · simp [unusable, noValidator]
      · simp [usable, validator]
  | enumTypes | inputObjectTypes | fieldRefTypes =>
      simp [isUsable, place]

/-- A field is left out where none of its alternatives has a validator. -/
theorem fieldOf?_eq_none_iff_forall
    {context : Context}
    {owner : String}
    {field : InputField} :
    fieldOf? context owner field = none ↔
      ∀ alternative ∈ field.alternatives, isUsable alternative = false := by
  simp [fieldOf?_eq_none_iff, List.filter_eq_nil_iff]

end Assembly

namespace Check

open ZodSchemas.Metadata Assembly Data

/-- The fields of the declared composites, each with its composite, in their order. -/
def declaredFields (document : Document) : List (Composite × InputField) :=
  document.composites.flatMap fun composite => composite.fields.map (composite, ·)

/-- The check of composites remarks on a field. -/
def IsRemarked (composite : Composite) (field : InputField) : Prop :=
  (omissionFinding? composite field).isSome = true

/-- A field that names scalars without validators, and nothing else but fields. -/
structure NamesUnsupportedScalars (field : InputField) : Prop where
  namesScalar : ∃ alternative ∈ field.alternatives, alternative.location = .scalar
  unsupported :
    ∀ alternative ∈ field.alternatives,
      alternative.location = .scalar ∧ scalar? alternative.typeName = none ∨
        alternative.location = .fieldRefTypes

/-- The remark on a field names its composite and the field itself, and it says whether there is an
alternative at all. -/
theorem omissionFinding?_eq_some_cases
    {composite : Composite}
    {field : InputField}
    {finding : Finding}
    (remarked : omissionFinding? composite field = some finding) :
    finding.level = .info ∧
      finding.details =
        [(.text "type", .text composite.name), (.text "field", .text field.name)] ∧
      finding.code =
        (if field.alternatives = [] then "FIELD_WITHOUT_ALTERNATIVES" else "FIELD_REF_ONLY") := by
  unfold omissionFinding? at remarked
  split at remarked
  · rename_i empty
    obtain rfl := Option.some.inj remarked
    exact ⟨rfl, rfl, (if_pos (List.isEmpty_iff.mp empty)).symm⟩
  · rename_i filled
    split at remarked
    · obtain rfl := Option.some.inj remarked
      exact ⟨rfl, rfl, (if_neg (mt List.isEmpty_iff.mpr filled)).symm⟩
    · contradiction

/-- The fields without alternatives are among those whose alternatives all name fields. -/
theorem isRemarked_iff
    {composite : Composite}
    {field : InputField} :
    IsRemarked composite field ↔
      ∀ alternative ∈ field.alternatives, alternative.location = .fieldRefTypes := by
  unfold IsRemarked omissionFinding?
  cases shape : field.alternatives with
  | nil =>
      simp
  | cons first rest =>
      simp

/-- The remarks of the check of composites are those on the declared fields, in their order; what
else it finds are errors. -/
theorem ofLevel_info_composites
    (document : Document) :
    Findings.ofLevel .info (composites document) =
      (declaredFields document).filterMap fun place => omissionFinding? place.1 place.2 := by
  have remarks :
      (document.composites.flatMap fun composite =>
          composite.fields.filterMap (omissionFinding? composite)) =
        (declaredFields document).filterMap fun place => omissionFinding? place.1 place.2 := by
    rw [declaredFields, List.filterMap_flatMap]
    simp only [List.filterMap_map]
    rfl
  rw [Findings.ofLevel, composites, List.filter_append, remarks,
    List.filter_eq_nil_iff.mpr, List.filter_eq_self.mpr, List.nil_append]
  · intro finding member
    obtain ⟨place, -, remarked⟩ := List.mem_filterMap.mp member
    exact beq_iff_eq.mpr (omissionFinding?_eq_some_cases remarked).1
  · intro finding member
    obtain ⟨name, -, rfl⟩ := List.mem_map.mp member
    simp [Finding.error, Finding.make]

/-- A field that is remarked on is left out. -/
theorem IsRemarked.fieldOf?_eq_none
    {composite : Composite}
    {field : InputField}
    (remarked : IsRemarked composite field)
    (context : Context) :
    fieldOf? context composite.name field = none :=
  fieldOf?_eq_none_iff_forall.mpr fun alternative member =>
    isUsable_eq_false_iff.mpr (.inr (isRemarked_iff.mp remarked alternative member))

/-- A field is left out without a remark exactly when it names scalars and nothing in it has a
validator. -/
theorem omitted_not_isRemarked_iff
    {context : Context}
    {composite : Composite}
    {field : InputField} :
    fieldOf? context composite.name field = none ∧ ¬ IsRemarked composite field ↔
      NamesUnsupportedScalars field := by
  rw [fieldOf?_eq_none_iff_forall, isRemarked_iff]
  simp only [isUsable_eq_false_iff]
  constructor
  · rintro ⟨unsupported, notOnlyFields⟩
    refine ⟨?_, unsupported⟩
    obtain ⟨alternative, member, noField⟩ : ∃ alternative ∈ field.alternatives,
        alternative.location ≠ .fieldRefTypes := by
      simpa using notOnlyFields
    exact ⟨alternative, member, ((unsupported alternative member).resolve_right noField).1⟩
  · rintro ⟨⟨alternative, member, scalar⟩, unsupported⟩
    refine ⟨unsupported, fun onlyFields => ?_⟩
    rw [onlyFields alternative member] at scalar
    contradiction

/-- The remarks of the check of composites belong to declared fields, in their order, and each
names its field.  Every field that is remarked on is left out, and every field that is left out is
remarked on unless it names scalars and nothing in it has a validator. -/
theorem isRemarked_iff_omitted_iff_supported
    (settings : Settings)
    (document : Document) :
    Findings.ofLevel .info (composites document) =
        (declaredFields document).filterMap (fun place => omissionFinding? place.1 place.2) ∧
      ∀ composite ∈ document.composites, ∀ field ∈ composite.fields,
        (∀ finding, omissionFinding? composite field = some finding →
          finding.details =
              [(.text "type", .text composite.name), (.text "field", .text field.name)] ∧
            finding.code =
              (if field.alternatives = [] then "FIELD_WITHOUT_ALTERNATIVES"
                else "FIELD_REF_ONLY")) ∧
        (IsRemarked composite field →
          fieldOf? (.build settings document) composite.name field = none) ∧
        ((IsRemarked composite field ↔
            fieldOf? (.build settings document) composite.name field = none) ↔
          ¬ NamesUnsupportedScalars field) := by
  refine ⟨ofLevel_info_composites document, fun composite _ field _ => ⟨?_, ?_, ?_⟩⟩
  · exact fun finding remarked => (omissionFinding?_eq_some_cases remarked).2
  · exact fun remarked => remarked.fieldOf?_eq_none _
  · have gap :
        fieldOf? (.build settings document) composite.name field = none ∧
            ¬ IsRemarked composite field ↔
          NamesUnsupportedScalars field :=
      omitted_not_isRemarked_iff
    rw [← gap]
    constructor
    · rintro agree ⟨omitted, notRemarked⟩
      exact notRemarked (agree.mpr omitted)
    · intro agree
      refine ⟨fun remarked => remarked.fieldOf?_eq_none _, fun omitted => ?_⟩
      by_contra notRemarked
      exact agree ⟨omitted, notRemarked⟩

/-- A composite with one field, whose only alternative is a scalar without a validator. -/
def nullNote : Document where
  provider := .postgresql
  previewFeatures := []
  models := []
  enums := []
  composites := [⟨"Note", [⟨"data", true, false, [⟨"Null", false, .scalar, none⟩]⟩]⟩]
  mappings := []
  aggregateSupport := none

/-- The only field of the document is left out, and nothing is found. -/
theorem not_isRemarked_nullNote :
    composites nullNote = [] ∧
      ∃ composite ∈ nullNote.composites, ∃ field ∈ composite.fields,
        fieldOf? (.build .default nullNote) composite.name field = none ∧
          ¬ IsRemarked composite field := by
  refine ⟨by decide +kernel, _, .head _, _, .head _, ?_⟩
  unfold IsRemarked
  decide +kernel

end Check

end ZodSchemas
