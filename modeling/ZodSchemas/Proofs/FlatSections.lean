import ZodSchemas.Proofs.SettingsSpelling
import ZodSchemas.Proofs.WellShapedSections

namespace ZodSchemas

/-!
# Flattening a flat section

A flattened section has none of the nested sections, no two enumerations of one
name, and its operation mappings in their canonical form at the end.  Flattening
finds nothing to do on such a section and returns it as it is, so a section that
has been flattened may be flattened again.
-/

open Data
open Metadata

namespace Data.Mapping

variable {mapping : Mapping} {key : String}

theorem erase_of_absent
    (absent : mapping.get? key = none) :
    mapping.erase key = mapping := by
  refine List.filter_eq_self.mpr fun entry member => ?_
  simpa using Decode.get?_eq_none_iff.mp absent entry member

theorem erase_put
    (mapping : Mapping)
    (key : String)
    (value : Value) :
    (mapping.put key value).erase key = mapping.erase key := by
  unfold put insert erase
  simp only [Decode.same_text]
  induction mapping with
  | nil =>
      simp [insertEntry]
  | cons entry rest inductionHypothesis =>
      by_cases isKey : entry.1 = .text key <;>
        simp [insertEntry, isKey, inductionHypothesis]

/-- A value that stands under a key already is not moved by being set. -/
theorem put_of_stated
    {value : Value}
    (stated : mapping.get? key = some value) :
    mapping.put key value = mapping := by
  unfold put insert
  induction mapping with
  | nil =>
      contradiction
  | cons entry rest inductionHypothesis =>
      obtain ⟨other, old⟩ := entry
      rw [Decode.get?_cons] at stated
      by_cases isKey : other = .text key
      · rw [if_pos isKey] at stated
        cases stated
        simp [insertEntry, isKey]
      · rw [if_neg isKey] at stated
        simp [insertEntry, isKey, inductionHypothesis stated]

end Data.Mapping

namespace Source

open Data.Mapping

section Merging

variable {keyOf : Value → Except Fault Value}

/-- What has been kept once is kept again. -/
theorem keepFirst_of_keepFirst
    {seen items kept : List Value}
    (isKept : keepFirst keyOf seen items = .ok kept) :
    keepFirst keyOf seen kept = .ok kept := by
  induction items generalizing seen kept with
  | nil =>
      cases isKept
      rfl
  | cons item rest inductionHypothesis =>
      obtain ⟨key, isKey, isFixed, ⟨-, inRest⟩ | ⟨unseen, others, areOthers, rfl⟩⟩ :=
        keepFirst_cons_eq_ok_iff.mp isKept
      · exact inductionHypothesis inRest
      · exact keepFirst_cons_eq_ok_iff.mpr
          ⟨key, isKey, isFixed, .inr ⟨unseen, others, inductionHypothesis areOthers, rfl⟩⟩

/-- The enumerations of a merged section are listed, and no name is repeated among them. -/
def HasMergedEnums (flat : Mapping) : Prop :=
  ∀ enums, flat.get? "enums" = some enums →
    ∃ items, enums = .list items ∧ firstByName [] items = .ok items

theorem hasMergedEnums_of_mergeEnums
    {lifted merged : Mapping}
    (isMerged : mergeEnums lifted = .ok merged) :
    HasMergedEnums merged := by
  intro enums stated
  rcases cases_of_mergeEnums isMerged with
    ⟨missing, rfl⟩ | ⟨listed, items, kept, -, -, areKept, rfl⟩
  · rw [missing] at stated
    contradiction
  · rw [Decode.get?_put, if_pos rfl] at stated
    cases stated
    refine ⟨kept, rfl, ?_⟩
    rw [firstByName_eq_keepFirst]
    exact keepFirst_of_keepFirst areKept

theorem mergeEnums_of_merged
    {flat : Mapping}
    (merged : HasMergedEnums flat) :
    mergeEnums flat = .ok flat := by
  unfold mergeEnums
  cases stated : flat.get? "enums" with
  | none =>
      rfl
  | some enums =>
      obtain ⟨items, rfl, areApart⟩ := merged enums stated
      simp only [bind_eq_ok_iff]
      refine ⟨items, rfl, items, areApart, ?_⟩
      rw [put_of_stated stated]

end Merging

section CanonicalForms

/-- A canonical operation mapping lists operations by their labels, and no raw one twice. -/
inductive IsCanonical : Value → Prop where
  | form
      (model : Value)
      (operations : List Operation)
      {raw : List Value}
      (apart : withoutRepetitions [] raw = .ok raw) :
      IsCanonical (.object (canonicalEntries model operations raw))

theorem isCanonical_of_canonicalMapping
    {item canonical : Value}
    (isResult : canonicalMapping item = .ok canonical) :
    IsCanonical canonical := by
  simp only [canonicalMapping, bind_eq_ok_iff] at isResult
  obtain ⟨fields, -, listed, -, names, -, operations, -, raw, isRaw, ⟨⟩⟩ := isResult
  refine .form _ (operations.filterMap id) ?_
  rw [withoutRepetitions_eq_keepFirst] at isRaw ⊢
  exact keepFirst_of_keepFirst isRaw

theorem IsCanonical.canonicalMapping_eq_self
    {item : Value}
    (isCanonical : IsCanonical item) :
    canonicalMapping item = .ok item := by
  cases isCanonical with
  | form model operations apart =>
      exact canonicalMapping_canonicalEntries model operations apart

theorem withoutMappings_withoutMappings
    (flat : Mapping) :
    withoutMappings (withoutMappings flat) = withoutMappings flat := by
  have absent (key : String) (isMapping : key = "modelOperations" ∨ key = "model_operations") :
      (withoutMappings flat).get? key = none := by
    rw [get?_withoutMappings, if_pos isMapping]
  rw [withoutMappings.eq_def (withoutMappings flat), erase_of_absent (absent _ (.inl rfl)),
    erase_of_absent (absent _ (.inr rfl))]

theorem withoutMappings_put
    (flat : Mapping)
    (value : Value) :
    withoutMappings (flat.put "modelOperations" value) = withoutMappings flat := by
  rw [withoutMappings, withoutMappings, erase_put]

/-- The operation mappings of a section stand behind everything else in their canonical form, or
there are none. -/
def HasCanonicalMappings (flat : Mapping) : Prop :=
  flat = withoutMappings flat ∨
    ∃ canonical, (∀ item ∈ canonical, IsCanonical item) ∧
      flat = (withoutMappings flat).put "modelOperations" (.list canonical)

theorem hasCanonicalMappings_of_canonicalMappings
    {merged flat : Mapping}
    (isFlat : canonicalMappings merged = .ok flat) :
    HasCanonicalMappings flat := by
  rcases cases_of_canonicalMappings isFlat with rfl | ⟨_, _, canonical, -, -, each, rfl⟩
  · exact .inl (withoutMappings_withoutMappings merged).symm
  · refine .inr ⟨canonical, ?_, ?_⟩
    · intro item member
      obtain ⟨original, -, isResult⟩ := Decode.exists_original_of_mem each member
      exact isCanonical_of_canonicalMapping isResult
    · rw [withoutMappings_put, withoutMappings_withoutMappings]

theorem canonicalMappings_of_canonical
    {flat : Mapping}
    (canonical : HasCanonicalMappings flat) :
    canonicalMappings flat = .ok flat := by
  rw [canonicalMappings_eq]
  rcases canonical with isRest | ⟨items, areCanonical, isFlat⟩
  · have absent :
        (flat.get? "modelOperations").or (flat.get? "model_operations") = none := by
      rw [isRest, get?_withoutMappings, get?_withoutMappings, if_pos (.inl rfl),
        if_pos (.inr rfl)]
      rfl
    rw [absent, ← isRest]
  · have stated :
        (flat.get? "modelOperations").or (flat.get? "model_operations") = some (.list items) := by
      rw [isFlat, Decode.get?_put, if_pos rfl]
      rfl
    have areTheirOwn : items.mapM canonicalMapping = .ok items := by
      rw [mapM_eq_ok_iff, List.forall₂_same]
      exact fun item member => (areCanonical item member).canonicalMapping_eq_self
    rw [stated]
    simp only [bind_eq_ok_iff]
    exact ⟨items, rfl, items, areTheirOwn, congrArg _ isFlat.symm⟩

end CanonicalForms

section Flattening

variable {data flat : Mapping}

/-- A section on which no stage of flattening has anything to do. -/
structure IsFlat (flat : Mapping) : Prop where
  unnested : ∀ key ∈ nestedSections, flat.get? key = none
  enums : HasMergedEnums flat
  mappings : HasCanonicalMappings flat

/-- Only nested sections are taken out of a section, and only they supply anything. -/
theorem lift_of_unnested
    (unnested : ∀ key ∈ nestedSections, data.get? key = none) :
    lift data = .ok data := by
  have noSource := unnested "datasource" (by decide)
  have noModels := unnested "datamodel" (by decide)
  have noTypes := unnested "schema" (by decide)
  have noMappings := unnested "mappings" (by decide)
  have sameFlat : flatPart data = data := by
    simp only [flatPart, nestedSections, List.foldl_cons, List.foldl_nil,
      erase_of_absent noModels, erase_of_absent noTypes, erase_of_absent noMappings,
      erase_of_absent noSource]
  simp only [lift, liftProvider, liftModels, liftTypes, liftMappings, nested?, sameFlat, noSource,
    noModels, noTypes, noMappings, Option.bind_none, bind_eq_ok_iff]
  exact ⟨data, rfl, data, rfl, rfl⟩

theorem flatten_of_isFlat
    (isFlat : IsFlat flat) :
    flatten flat = .ok flat := by
  simp only [flatten_eq_bind_lift, bind_eq_ok_iff]
  exact ⟨flat, lift_of_unnested isFlat.unnested, flat, mergeEnums_of_merged isFlat.enums,
    canonicalMappings_of_canonical isFlat.mappings⟩

/-- Each stage leaves what the next flattening asks of it, and later stages do not touch that. -/
theorem isFlat_of_flatten
    (isResult : flatten data = .ok flat) :
    IsFlat flat := by
  simp only [flatten_eq_bind_lift, bind_eq_ok_iff] at isResult
  obtain ⟨lifted, isLift, merged, isMerged, isFlat⟩ := isResult
  obtain ⟨items, lists, -⟩ := exists_lists_of_mergeEnums isMerged
  obtain ⟨-, composites, -, isLifted⟩ := isLifted_of_lift isLift lists
  have neither :
      ∀ key ∈ nestedSections,
        ¬ (key = "modelOperations" ∨ key = "model_operations") ∧ "enums" ≠ key := by
    decide
  constructor
  · intro key isNested
    rw [get?_of_canonicalMappings isFlat (neither key isNested).1,
      get?_of_mergeEnums isMerged (neither key isNested).2, isLifted.nested key isNested]
  · intro enums stated
    rw [get?_of_canonicalMappings isFlat (by decide)] at stated
    exact hasMergedEnums_of_mergeEnums isMerged enums stated
  · exact hasCanonicalMappings_of_canonicalMappings isFlat

/-- Flattening twice is flattening once: what the first one returns, with the order of its entries,
is returned by the second one. -/
theorem flatten_bind_flatten
    (data : Mapping) :
    flatten data >>= flatten = flatten data := by
  cases isResult : flatten data with
  | error fault =>
      rfl
  | ok flat =>
      exact flatten_of_isFlat (isFlat_of_flatten isResult)

end Flattening

end Source

end ZodSchemas
