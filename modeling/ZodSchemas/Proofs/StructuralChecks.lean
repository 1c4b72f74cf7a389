import ZodSchemas.Proofs.PlannedUnits

namespace ZodSchemas.Check

/-!
# What a document without errors is like

Findings say what is wrong with a document; here is what the absence of errors,
and of the warning about repeated mappings, says about its parts.
-/

open ZodSchemas.Metadata

namespace Findings

theorem hasErrors_eq_false_iff
    {findings : Findings} :
    findings.hasErrors = false ↔ ∀ finding ∈ findings, finding.level ≠ .error := by
  simp [hasErrors]

theorem hasErrors_append_eq_false_iff
    {findings others : Findings} :
    Findings.hasErrors (findings ++ others) = false ↔
      findings.hasErrors = false ∧ others.hasErrors = false := by
  simp only [hasErrors_eq_false_iff, List.forall_mem_append]

theorem hasErrors_flatMap_eq_false_iff
    {parts : List α}
    {check : α → Findings} :
    Findings.hasErrors (parts.flatMap check) = false ↔
      ∀ part ∈ parts, (check part).hasErrors = false := by
  simp only [hasErrors_eq_false_iff, List.mem_flatMap]
  constructor
  · intro noErrors part member finding inPart
    exact noErrors finding ⟨part, member, inPart⟩
  · rintro noErrors finding ⟨part, member, inPart⟩
    exact noErrors part member finding inPart

/-- Where every item is reported as an error, there are no items. -/
theorem eq_nil_of_hasErrors_map_eq_false
    {items : List α}
    {report : α → Finding}
    (isError : ∀ item, (report item).level = .error)
    (noErrors : Findings.hasErrors (items.map report) = false) :
    items = [] := by
  rw [List.eq_nil_iff_forall_not_mem]
  intro item member
  exact hasErrors_eq_false_iff.mp noErrors (report item) (List.mem_map_of_mem member)
    (isError item)

/-- Where a failed condition is reported as an error, it holds. -/
theorem of_hasErrors_ite_eq_false
    {condition : Prop}
    [Decidable condition]
    {finding : Finding}
    (isError : finding.level = .error)
    (noErrors : Findings.hasErrors (if condition then [] else [finding]) = false) :
    condition := by
  by_contra fails
  rw [if_neg fails] at noErrors
  exact hasErrors_eq_false_iff.mp noErrors finding (.head _) isError

end Findings

open Findings

/-- What holds of the parts of a document without errors. -/
structure Sound (document : Document) : Prop where
  modelsAreIdentifiers : ∀ model ∈ document.models, Text.isIdentifier model.name = true
  enumsApart : document.enumNames.Nodup
  compositesApart : (document.composites.map (·.name)).Nodup
  mappedModelsKnown :
    ∀ mapping ∈ document.mappings, ∃ model, document.model? mapping.model = some model

theorem exists_model_of_contains
    {document : Document}
    {name : String}
    (listed : (modelNames document).contains name = true) :
    ∃ model, document.model? name = some model := by
  obtain ⟨model, member, isName⟩ := List.mem_map.mp (List.contains_iff_mem.mp listed)
  rw [Document.model?, ← Option.isSome_iff_exists, List.find?_isSome]
  exact ⟨model, member, beq_iff_eq.mpr isName⟩

/-- Without errors every mapping belongs to a known model. -/
theorem mappedModelsKnown_of_mappingsFrom
    {document : Document}
    {seen : List String}
    {mappings : List OperationMapping}
    (noErrors : (mappingsFrom document seen mappings).hasErrors = false) :
    ∀ mapping ∈ mappings, ∃ model, document.model? mapping.model = some model := by
  induction mappings generalizing seen with
  | nil =>
      nofun
  | cons head rest inductionHypothesis =>
      rw [mappingsFrom, hasErrors_append_eq_false_iff] at noErrors
      rw [List.forall_mem_cons]
      refine ⟨?_, inductionHypothesis noErrors.2⟩
      have atHead := noErrors.1
      rw [mappingFindings, List.append_assoc, hasErrors_append_eq_false_iff] at atHead
      exact exists_model_of_contains (of_hasErrors_ite_eq_false rfl atHead.1)

/-- A document whose metadata has no errors is sound. -/
theorem sound_of_metadata
    {document : Document}
    (noErrors : (metadata document).hasErrors = false) :
    Sound document := by
  simp only [metadata, hasErrors_append_eq_false_iff] at noErrors
  obtain ⟨⟨⟨⟨inNaming, -⟩, inEnumerations⟩, inComposites⟩, inMappings⟩ := noErrors
  simp only [enumerations, List.append_assoc, hasErrors_append_eq_false_iff] at inEnumerations
  simp only [composites, hasErrors_append_eq_false_iff] at inComposites
  refine ⟨?_, ?_, ?_, mappedModelsKnown_of_mappingsFrom inMappings⟩
  · intro model member
    have inModel := hasErrors_flatMap_eq_false_iff.mp inNaming model member
    rw [modelNaming, hasErrors_append_eq_false_iff] at inModel
    exact of_hasErrors_ite_eq_false rfl inModel.1
  · exact Decode.duplicates_eq_nil_iff.mp
      (eq_nil_of_hasErrors_map_eq_false (fun _ => rfl) inEnumerations.1)
  · exact Decode.duplicates_eq_nil_iff.mp
      (eq_nil_of_hasErrors_map_eq_false (fun _ => rfl) inComposites.1)

theorem Sound.firstMappedModelsKnown
    {document : Document}
    (sound : Sound document) :
    ∀ mapping ∈ Assembly.firstMappings document.mappings,
      ∃ model, document.model? mapping.model = some model :=
  fun mapping first =>
    sound.mappedModelsKnown mapping (Assembly.mem_of_mem_firstMappings first)

theorem Sound.slash_not_mem_of_mapped
    {document : Document}
    (sound : Sound document)
    {mapping : OperationMapping}
    (member : mapping ∈ document.mappings) :
    '/' ∉ mapping.model.toList := by
  obtain ⟨model, found⟩ := sound.mappedModelsKnown mapping member
  obtain ⟨isName, modelMember⟩ := Assembly.model?_eq_some found
  exact isName ▸ Text.slash_not_mem_of_isIdentifier (sound.modelsAreIdentifiers model modelMember)

/-- Where all checks together find no error, each of them has been made. -/
theorem full_eq_of_no_errors
    {settings : Settings}
    {document : Document}
    (noErrors : (full settings document).hasErrors = false) :
    Findings.hasErrors (metadata document ++ Check.settings settings document) = false ∧
      full settings document =
        metadata document ++ Check.settings settings document
          ++ references settings document := by
  unfold full at noErrors ⊢
  dsimp only at noErrors ⊢
  split at noErrors
  · rename_i structuralErrors
    rw [noErrors] at structuralErrors
    contradiction
  · rename_i noStructuralErrors
    exact ⟨Bool.eq_false_iff.mpr noStructuralErrors, if_neg noStructuralErrors⟩

/-- A document in which all checks together find no error is sound. -/
theorem sound_of_full
    {settings : Settings}
    {document : Document}
    (noErrors : (full settings document).hasErrors = false) :
    Sound document :=
  sound_of_metadata (hasErrors_append_eq_false_iff.mp (full_eq_of_no_errors noErrors).1).1

/-- Nothing is repeated in a list of different names that are all new. -/
theorem repetitions_eq_nil_iff
    {seen names : List String} :
    repetitions seen names = [] ↔ names.Nodup ∧ ∀ name ∈ names, name ∉ seen := by
  induction names generalizing seen with
  | nil =>
      simp [repetitions]
  | cons head rest inductionHypothesis =>
      rw [repetitions, List.append_eq_nil_iff, inductionHypothesis, List.nodup_cons,
        List.forall_mem_cons]
      have headNew : (if seen.contains head then [head] else []) = [] ↔ head ∉ seen := by
        simp
      rw [headNew]
      constructor
      · rintro ⟨fresh, restApart, restFresh⟩
        refine ⟨⟨fun again => restFresh head again (.head _), restApart⟩, fresh, ?_⟩
        exact fun name member inSeen => restFresh name member (.tail _ inSeen)
      · rintro ⟨⟨headFresh, restApart⟩, fresh, restFresh⟩
        refine ⟨fresh, restApart, fun name member => ?_⟩
        rw [List.mem_cons, not_or]
        exact ⟨fun same => headFresh (same ▸ member), restFresh name member⟩

/-- In a document without errors the fields of each model have different names. -/
theorem fieldNames_nodup_of_full
    {settings : Settings}
    {document : Document}
    (noErrors : (full settings document).hasErrors = false) :
    ∀ model ∈ document.models, (model.fields.map (·.name)).Nodup := by
  intro model member
  have structural := (full_eq_of_no_errors noErrors).1
  simp only [metadata, hasErrors_append_eq_false_iff] at structural
  obtain ⟨⟨⟨⟨⟨inNaming, -⟩, -⟩, -⟩, -⟩, -⟩ := structural
  have inModel := hasErrors_flatMap_eq_false_iff.mp inNaming model member
  rw [modelNaming, hasErrors_append_eq_false_iff] at inModel
  exact (repetitions_eq_nil_iff.mp
    (eq_nil_of_hasErrors_map_eq_false (fun _ => rfl) inModel.2)).1

end ZodSchemas.Check
