import ZodSchemas.Proofs.FirstReading
import ZodSchemas.Proofs.SecondReading

namespace ZodSchemas

/-!
# What the reading of a section depends on

A metadata section is read through a fixed number of keys.  Sections that agree
outside other keys are read alike: the same fault ends both readings, or both
documents are the same.  The provider is read apart from everything else, so it
can be replaced without another effect.
-/

open Data
open Metadata

namespace Data.Mapping

theorem get?_putDefault
    (mapping : Mapping)
    (name : String)
    (value : Value)
    (other : String) :
    (mapping.putDefault name value).get? other =
      if name = other then some ((mapping.get? name).getD value) else mapping.get? other := by
  unfold putDefault contains
  cases stated : mapping.get? name with
  | some old =>
      by_cases isName : name = other
      · simp [← isName, stated]
      · simp [isName]
  | none =>
      simp [Decode.get?_put]

/-- Two mappings have the same values outside some keys. -/
def AgreeOutside (keys : List String) (first second : Mapping) : Prop :=
  ∀ key ∉ keys, first.get? key = second.get? key

namespace AgreeOutside

variable {keys : List String} {first second : Mapping}

theorem put
    (agree : AgreeOutside keys first second)
    (key : String)
    (value : Value) :
    AgreeOutside keys (first.put key value) (second.put key value) := by
  intro other outside
  rw [Decode.get?_put, Decode.get?_put, agree other outside]

theorem erase
    (agree : AgreeOutside keys first second)
    (key : String) :
    AgreeOutside keys (first.erase key) (second.erase key) := by
  intro other outside
  rw [Decode.get?_erase, Decode.get?_erase, agree other outside]

theorem putDefault
    (agree : AgreeOutside keys first second)
    (key : String)
    (value : Value) :
    AgreeOutside keys (first.putDefault key value) (second.putDefault key value) := by
  intro other outside
  rw [get?_putDefault, get?_putDefault]
  split
  · rename_i same
    rw [same, agree other outside]
  · exact agree other outside

end AgreeOutside

/-- A change under one of the keys does not matter. -/
theorem agreeOutside_put
    {keys : List String}
    {key : String}
    (inside : key ∈ keys)
    (mapping : Mapping)
    (value : Value) :
    AgreeOutside keys mapping (mapping.put key value) := by
  intro other outside
  have different : key ≠ other := fun same => outside (same ▸ inside)
  rw [Decode.get?_put, if_neg different]

end Data.Mapping

namespace Source

open Data.Mapping

/-- The keys through which a section is flattened, besides the provider. -/
def sectionKeys : List String :=
  nestedSections ++ ["models", "enums", "inputObjectTypes", "modelOperations", "model_operations"]

/-- Two readings end in the same fault, or in mappings that agree outside some keys. -/
inductive ReadAlike (keys : List String) :
    Except Fault Mapping → Except Fault Mapping → Prop where
  | ok
      {first second : Mapping}
      (agree : AgreeOutside keys first second) :
      ReadAlike keys (.ok first) (.ok second)
  | error (fault : Fault) :
      ReadAlike keys (.error fault) (.error fault)

section Stages

variable {keys : List String} {data other first second : Mapping}

theorem ReadAlike.bind
    {results others : Except Fault Mapping}
    {next further : Mapping → Except Fault Mapping}
    (alike : ReadAlike keys results others)
    (goesOn :
      ∀ first second, AgreeOutside keys first second →
        ReadAlike keys (next first) (further second)) :
    ReadAlike keys (results >>= next) (others >>= further) := by
  cases alike with
  | ok agree =>
      exact goesOn _ _ agree
  | error fault =>
      exact .error fault

/-- After the same step two readings go on alike if they do from each of its results. -/
theorem readAlike_bind
    (step : Except Fault α)
    {next further : α → Except Fault Mapping}
    (goesOn : ∀ value, ReadAlike keys (next value) (further value)) :
    ReadAlike keys (step >>= next) (step >>= further) := by
  cases step with
  | ok value =>
      exact goesOn value
  | error fault =>
      exact .error fault

theorem nested?_congr
    {key : String}
    (agree : AgreeOutside keys first second)
    (outside : key ∉ keys) :
    nested? first key = nested? second key := by
  rw [nested?, nested?, agree key outside]

theorem agreeOutside_flatPart
    (agree : AgreeOutside keys data other) :
    AgreeOutside keys (flatPart data) (flatPart other) :=
  (((agree.erase _).erase _).erase _).erase _

theorem canonicalMappings_alike
    (unlisted : "modelOperations" ∉ keys ∧ "model_operations" ∉ keys)
    (agree : AgreeOutside keys first second) :
    ReadAlike keys (canonicalMappings first) (canonicalMappings second) := by
  have rest :
      AgreeOutside keys
        ((first.erase "modelOperations").erase "model_operations")
        ((second.erase "modelOperations").erase "model_operations") :=
    (agree.erase _).erase _
  rw [canonicalMappings, canonicalMappings, agree "modelOperations" unlisted.1,
    agree "model_operations" unlisted.2]
  split
  · exact .ok rest
  · exact .ok rest
  · refine readAlike_bind _ fun items => readAlike_bind _ fun mappings => ?_
    exact .ok (rest.put "modelOperations" _)

variable (apart : ∀ key ∈ sectionKeys, key ∉ keys)

include apart

theorem appendEnums_alike
    (agree : AgreeOutside keys first second)
    (enums : Value) :
    ReadAlike keys (appendEnums enums first) (appendEnums enums second) := by
  have sameEnums : listAt first "enums" = listAt second "enums" := by
    rw [listAt, listAt, agree "enums" (apart "enums" (by decide))]
  rw [appendEnums, appendEnums, sameEnums]
  refine readAlike_bind _ fun own => readAlike_bind _ fun further => ?_
  exact .ok (agree.put "enums" _)

theorem agreeOutside_liftProvider
    (dataAgree : AgreeOutside keys data other)
    (agree : AgreeOutside keys first second) :
    AgreeOutside keys (liftProvider data first) (liftProvider other second) := by
  rw [liftProvider, liftProvider, nested?_congr dataAgree (apart "datasource" (by decide))]
  split
  · exact agree.putDefault "provider" _
  · exact agree

theorem liftModels_alike
    (dataAgree : AgreeOutside keys data other)
    (agree : AgreeOutside keys first second) :
    ReadAlike keys (liftModels data first) (liftModels other second) := by
  rw [liftModels, liftModels, nested?_congr dataAgree (apart "datamodel" (by decide))]
  split
  · exact appendEnums_alike apart (agree.putDefault "models" _) _
  · exact .ok agree

theorem liftTypes_alike
    (dataAgree : AgreeOutside keys data other)
    (agree : AgreeOutside keys first second) :
    ReadAlike keys (liftTypes data first) (liftTypes other second) := by
  rw [liftTypes, liftTypes, nested?_congr dataAgree (apart "schema" (by decide))]
  split
  · refine readAlike_bind _ fun composites => readAlike_bind _ fun enums => ?_
    exact appendEnums_alike apart (agree.putDefault "inputObjectTypes" _) _
  · exact .ok agree

theorem agreeOutside_liftMappings
    (dataAgree : AgreeOutside keys data other)
    (agree : AgreeOutside keys first second) :
    AgreeOutside keys (liftMappings data first) (liftMappings other second) := by
  rw [liftMappings, liftMappings, nested?_congr dataAgree (apart "mappings" (by decide))]
  split
  · exact agree.putDefault "modelOperations" _
  · exact agree

theorem mergeEnums_alike
    (agree : AgreeOutside keys first second) :
    ReadAlike keys (mergeEnums first) (mergeEnums second) := by
  rw [mergeEnums, mergeEnums, agree "enums" (apart "enums" (by decide))]
  split
  · refine readAlike_bind _ fun items => readAlike_bind _ fun merged => ?_
    exact .ok (agree.put "enums" _)
  · exact .ok agree

/-- Sections that agree outside keys that no stage reads are flattened alike. -/
theorem flatten_alike
    (agree : AgreeOutside keys data other) :
    ReadAlike keys (flatten data) (flatten other) := by
  have provided := agreeOutside_liftProvider apart agree (agreeOutside_flatPart agree)
  refine (liftModels_alike apart agree provided).bind fun _ _ withModels => ?_
  refine (liftTypes_alike apart agree withModels).bind fun _ _ withTypes => ?_
  have lifted := agreeOutside_liftMappings apart agree withTypes
  have unlisted := And.intro (apart "modelOperations" (by decide))
    (apart "model_operations" (by decide))
  exact (mergeEnums_alike apart lifted).bind fun _ _ merged =>
    canonicalMappings_alike unlisted merged

end Stages

section Stated

variable {key : String} {value : Value} {data flat result : Mapping}

/-- What a mapping states itself is not replaced by a default. -/
theorem get?_putDefault_of_stated
    (stated : flat.get? key = some value)
    (other : String)
    (default : Value) :
    (flat.putDefault other default).get? key = some value := by
  rw [get?_putDefault]
  split
  · rename_i same
    rw [same, stated, Option.getD_some]
  · exact stated

variable (apart : key ∉ sectionKeys)

include apart

theorem get?_flatPart_of_stated
    (stated : data.get? key = some value) :
    (flatPart data).get? key = some value := by
  have different (section_ : String) (listed : section_ ∈ sectionKeys) : section_ ≠ key :=
    fun same => apart (same ▸ listed)
  simp only [flatPart, nestedSections, List.foldl_cons, List.foldl_nil, Decode.get?_erase]
  rw [if_neg (different "datasource" (by decide)), if_neg (different "mappings" (by decide)),
    if_neg (different "schema" (by decide)), if_neg (different "datamodel" (by decide)), stated]

theorem get?_put_of_stated
    (stated : flat.get? key = some value)
    {other : String}
    (listed : other ∈ sectionKeys)
    (new : Value) :
    (flat.put other new).get? key = some value := by
  have different : other ≠ key := fun same => apart (same ▸ listed)
  rw [Decode.get?_put, if_neg different, stated]

theorem get?_appendEnums_of_stated
    (stated : flat.get? key = some value)
    {enums : Value}
    (isResult : appendEnums enums flat = .ok result) :
    result.get? key = some value := by
  simp only [appendEnums, bind_eq_ok_iff] at isResult
  obtain ⟨own, -, further, -, ⟨⟩⟩ := isResult
  exact get?_put_of_stated apart stated (by decide) _

theorem get?_liftModels_of_stated
    (stated : flat.get? key = some value)
    (isResult : liftModels data flat = .ok result) :
    result.get? key = some value := by
  unfold liftModels at isResult
  split at isResult
  · exact get?_appendEnums_of_stated apart (get?_putDefault_of_stated stated _ _) isResult
  · cases isResult
    exact stated

theorem get?_liftTypes_of_stated
    (stated : flat.get? key = some value)
    (isResult : liftTypes data flat = .ok result) :
    result.get? key = some value := by
  unfold liftTypes at isResult
  split at isResult
  · simp only [bind_eq_ok_iff] at isResult
    obtain ⟨composites, -, enums, -, isResult⟩ := isResult
    exact get?_appendEnums_of_stated apart (get?_putDefault_of_stated stated _ _) isResult
  · cases isResult
    exact stated

theorem get?_mergeEnums_of_stated
    (stated : flat.get? key = some value)
    (isResult : mergeEnums flat = .ok result) :
    result.get? key = some value := by
  rcases cases_of_mergeEnums isResult with ⟨-, rfl⟩ | ⟨_, _, kept, -, -, -, rfl⟩
  · exact stated
  · exact get?_put_of_stated apart stated (by decide) _

theorem get?_canonicalMappings_of_stated
    (stated : flat.get? key = some value)
    (isResult : canonicalMappings flat = .ok result) :
    result.get? key = some value := by
  have unlisted : (withoutMappings flat).get? key = some value := by
    have noMappings : ¬ (key = "modelOperations" ∨ key = "model_operations") := by
      rintro (rfl | rfl) <;> exact apart (by decide)
    rw [get?_withoutMappings, if_neg noMappings, stated]
  rcases cases_of_canonicalMappings isResult with rfl | ⟨_, _, canonical, -, -, -, rfl⟩
  · exact unlisted
  · exact get?_put_of_stated apart unlisted (by decide) _

/-- What a section states under a key that no stage writes is still there when it is flat. -/
theorem get?_flatten_of_stated
    (stated : data.get? key = some value)
    (isFlat : flatten data = .ok flat) :
    flat.get? key = some value := by
  simp only [flatten, bind_eq_ok_iff] at isFlat
  obtain ⟨withModels, isWithModels, withTypes, isWithTypes, merged, isMerged, isFlat⟩ := isFlat
  have provided : (liftProvider data (flatPart data)).get? key = some value := by
    have inFlatPart := get?_flatPart_of_stated apart stated
    unfold liftProvider
    split
    · exact get?_putDefault_of_stated inFlatPart _ _
    · exact inFlatPart
  have lifted : (liftMappings data withTypes).get? key = some value := by
    have inTypes := get?_liftTypes_of_stated apart
      (get?_liftModels_of_stated apart provided isWithModels) isWithTypes
    unfold liftMappings
    split
    · exact get?_putDefault_of_stated inTypes _ _
    · exact inTypes
  exact get?_canonicalMappings_of_stated apart (get?_mergeEnums_of_stated apart lifted isMerged)
    isFlat

end Stated

section Documents

open Decode
open Decode.Decoded

variable {keys : List String} {data other first second : Mapping}

theorem optional_congr
    (agree : AgreeOutside keys first second)
    {name : FieldName}
    (unread : name.document ∉ keys ∧ name.plain ∉ keys)
    (absent : α)
    (decode : Value → Decoded α) :
    Decode.optional name absent decode first = Decode.optional name absent decode second := by
  have found : name.find? first = name.find? second := by
    rw [FieldName.find?, FieldName.find?, agree _ unread.1, agree _ unread.2]
  rw [Decode.optional, Decode.optional, found]

/-- The documents of mappings that agree outside keys that no field has are the same. -/
theorem documentFields_congr
    (agree : AgreeOutside keys first second)
    (unread : ∀ name ∈ documentNames, name.document ∉ keys ∧ name.plain ∉ keys) :
    documentFields first = documentFields second := by
  simp only [documentFields,
    optional_congr agree (unread (.single "provider") (by decide)),
    optional_congr agree (unread ⟨"previewFeatures", "preview_features"⟩ (by decide)),
    optional_congr agree (unread (.single "models") (by decide)),
    optional_congr agree (unread (.single "enums") (by decide)),
    optional_congr agree (unread ⟨"inputObjectTypes", "input_object_types"⟩ (by decide)),
    optional_congr agree (unread ⟨"modelOperations", "model_operations"⟩ (by decide)),
    optional_congr agree (unread ⟨"aggregateSupport", "aggregate_support"⟩ (by decide))]

/-- Keys that nothing is read from do not change what a section is read as. -/
theorem parseMetadata_congr
    (apart : ∀ key ∈ sectionKeys, key ∉ keys)
    (unread : ∀ name ∈ documentNames, name.document ∉ keys ∧ name.plain ∉ keys)
    (agree : AgreeOutside keys data other) :
    parseMetadata data = parseMetadata other := by
  have alike := flatten_alike apart agree
  unfold parseMetadata
  generalize flatten data = flat at alike
  generalize flatten other = otherFlat at alike
  cases alike with
  | ok flatAgree =>
      change accept _ ((documentFields _).check _) = accept _ ((documentFields _).check _)
      rw [documentFields_congr flatAgree unread]
  | error fault =>
      rfl

theorem parseMetadata_eq_ok_iff
    {document : Document} :
    parseMetadata data = .ok document ↔
      ∃ flat, flatten data = .ok flat ∧ documentFields flat = .accepted document ∧
        refuseDuplicates "model names" (document.models.map (·.name)) = none := by
  simp only [parseMetadata, bind_eq_ok_iff, Source.accept_eq_ok_iff]
  exact exists_congr fun flat => and_congr_right fun _ => check_eq_accepted_iff

/-- The provider that a section states is the one that is read. -/
theorem member_label
    (provider : Provider) :
    member Provider.all Provider.label (.text provider.label) = .accepted provider := by
  cases provider <;> rfl

theorem optional_provider
    {provider : Provider}
    (stated : data.get? "provider" = some (.text provider.label)) :
    Decode.optional (.single "provider") .postgresql (member Provider.all Provider.label) data =
      .accepted provider := by
  have found : (FieldName.single "provider").find? data =
      some ("provider", .text provider.label) := by
    rw [FieldName.find?, FieldName.single, stated]
  rw [Decode.optional, found]
  dsimp only
  rw [member_label]
  rfl

/-- A stated provider takes the place of another one, and nothing else is read differently. -/
theorem documentFields_of_provider
    {document : Document}
    (accepted : documentFields first = .accepted document)
    (agree : AgreeOutside ["provider"] first second)
    {provider : Provider}
    (stated : second.get? "provider" = some (.text provider.label)) :
    documentFields second = .accepted { document with provider := provider } := by
  simp only [documentFields, seq_eq_accepted_iff, map_eq_accepted_iff] at accepted
  obtain ⟨_, support, ⟨_, mappings, ⟨_, composites, ⟨_, enums, ⟨_, models, ⟨_, features,
    ⟨old, -, rfl⟩, inFeatures, rfl⟩, inModels, rfl⟩, inEnums, rfl⟩, inComposites, rfl⟩,
    inMappings, rfl⟩, inSupport, rfl⟩ := accepted
  refine seq_of_accepted (seq_of_accepted (seq_of_accepted (seq_of_accepted (seq_of_accepted
    (seq_of_accepted (map_of_accepted (optional_provider stated) _) ?_) ?_) ?_) ?_) ?_) ?_
  · exact (optional_congr agree (by decide) _ _).symm.trans inFeatures
  · exact (optional_congr agree (by decide) _ _).symm.trans inModels
  · exact (optional_congr agree (by decide) _ _).symm.trans inEnums
  · exact (optional_congr agree (by decide) _ _).symm.trans inComposites
  · exact (optional_congr agree (by decide) _ _).symm.trans inMappings
  · exact (optional_congr agree (by decide) _ _).symm.trans inSupport

theorem provider_of_parseMetadata
    {provider : Provider}
    (stated : data.get? "provider" = some (.text provider.label))
    {document : Document}
    (isParsed : parseMetadata data = .ok document) :
    document.provider = provider := by
  obtain ⟨flat, isFlat, inFields, -⟩ := parseMetadata_eq_ok_iff.mp isParsed
  have inFlat := get?_flatten_of_stated (by decide) stated isFlat
  have replaced := documentFields_of_provider inFields (fun _ _ => rfl) inFlat
  have same : document = { document with provider := provider } :=
    Decoded.accepted.inj (inFields.symm.trans replaced)
  rw [same]

/-- A section with another provider is read as the same document with that provider. -/
theorem parseMetadata_of_provider
    (agree : AgreeOutside ["provider"] data other)
    {provider : Provider}
    (stated : other.get? "provider" = some (.text provider.label))
    {document : Document}
    (isParsed : parseMetadata data = .ok document) :
    parseMetadata other = .ok { document with provider := provider } := by
  obtain ⟨flat, isFlat, inFields, apart⟩ := parseMetadata_eq_ok_iff.mp isParsed
  have alike := flatten_alike (by decide) agree
  rw [isFlat] at alike
  generalize otherResult : flatten other = otherFlat at alike
  cases alike with
  | ok flatAgree =>
      have inFlat := get?_flatten_of_stated (by decide) stated otherResult
      exact parseMetadata_eq_ok_iff.mpr
        ⟨_, otherResult, documentFields_of_provider inFields flatAgree inFlat, apart⟩

end Documents

end Source

end ZodSchemas
