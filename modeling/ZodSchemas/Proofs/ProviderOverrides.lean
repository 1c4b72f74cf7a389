import ZodSchemas.Proofs.InputReading
import ZodSchemas.Proofs.SectionFrames

namespace ZodSchemas

/-!
# Overrides of the provider

The section that receives overrides of the metadata is `dmmf` wherever a
document has that key; the section that is read is `metadata` wherever that is
an object.  A provider is overridden unless these rules name different sections:
then the override goes into a section that nobody reads.
-/

open Data
open Metadata
open Generation

namespace Source

/-- The overrides that set a provider. -/
def providerOverride (provider : Provider) : Mapping :=
  [(.text "provider", .text provider.label)]

/-- The section that receives overrides is not the one that is read. -/
def IsShadowed (raw : Mapping) : Prop :=
  raw.contains "dmmf" = true ∧ (nested? raw "metadata").isSome = true

/-- A document has no section of its own for its metadata. -/
def IsBare (raw : Mapping) : Prop :=
  nested? raw "metadata" = none ∧ nested? raw "dmmf" = none

theorem overlay_providerOverride
    (mapping : Mapping)
    (provider : Provider) :
    mapping.overlay (providerOverride provider) =
      mapping.put "provider" (.text provider.label) :=
  rfl

theorem get?_put_provider
    (mapping : Mapping)
    (provider : Provider) :
    (mapping.put "provider" (.text provider.label)).get? "provider" =
      some (.text provider.label) := by
  rw [Decode.get?_put, if_pos rfl]

theorem nested?_put
    (raw : Mapping)
    (key : String)
    (value : Value)
    (other : String) :
    nested? (raw.put key value) other =
      if key = other then value.entries? else nested? raw other := by
  unfold nested?
  rw [Decode.get?_put]
  split <;> rfl

theorem nested?_eq_none_of_absent
    {raw : Mapping}
    {key : String}
    (absent : raw.contains key = false) :
    nested? raw key = none := by
  have missing : raw.get? key = none := by
    simpa [Mapping.contains] using absent
  rw [nested?, missing]
  rfl

/-- Overrides go into the nested section, if there is one. -/
theorem overrideSection?_eq
    (overrides raw : Mapping) :
    overrideSection? overrides raw =
      (nested? raw (overriddenSection raw)).map fun entries =>
        raw.put (overriddenSection raw) (.mapping (Mapping.overlay entries overrides)) := by
  unfold overrideSection? nested?
  cases raw.get? (overriddenSection raw) with
  | none =>
      rfl
  | some value =>
      cases value <;> rfl

theorem overriddenSection_eq_or
    (raw : Mapping) :
    overriddenSection raw = "dmmf" ∨ overriddenSection raw = "metadata" := by
  unfold overriddenSection
  split
  · exact .inl rfl
  · exact .inr rfl

theorem overriddenSection_congr
    {raw other : Mapping}
    (agree : Mapping.AgreeOutside ["config"] raw other) :
    overriddenSection raw = overriddenSection other := by
  rw [overriddenSection, overriddenSection, Mapping.contains, Mapping.contains,
    agree "dmmf" (by decide)]

/-- A change of a document that neither reads nor writes its settings. -/
structure IsApartFromSettings (change : Mapping → Mapping) : Prop where
  keeps : ∀ raw, (change raw).get? "config" = raw.get? "config"
  agree :
    ∀ raw other, Mapping.AgreeOutside ["config"] raw other →
      Mapping.AgreeOutside ["config"] (change raw) (change other)

theorem isApartFromSettings_id :
    IsApartFromSettings id :=
  ⟨fun _ => rfl, fun _ _ agree => agree⟩

theorem isApartFromSettings_put
    {key : String}
    (different : key ≠ "config")
    (value : Value) :
    IsApartFromSettings (·.put key value) := by
  constructor
  · intro raw
    rw [Decode.get?_put, if_neg different]
  · exact fun raw other agree => agree.put key value

/-- Overrides in the section of the metadata, with another change where there is none. -/
theorem isApartFromSettings_overrideSection
    (overrides : Mapping)
    {otherwise : Mapping → Mapping}
    (apart : IsApartFromSettings otherwise) :
    IsApartFromSettings fun raw => (overrideSection? overrides raw).getD (otherwise raw) := by
  have different (raw : Mapping) : overriddenSection raw ≠ "config" := by
    rcases overriddenSection_eq_or raw with isDmmf | isMetadata
    · simp [isDmmf]
    · simp [isMetadata]
  constructor
  · intro raw
    rw [overrideSection?_eq]
    cases nested? raw (overriddenSection raw) with
    | none =>
        exact apart.keeps raw
    | some entries =>
        exact (isApartFromSettings_put (different raw) _).keeps raw
  · intro raw other agree
    have sameSection :
        nested? raw (overriddenSection other) = nested? other (overriddenSection other) :=
      nested?_congr agree (by simpa using different other)
    rw [overrideSection?_eq, overrideSection?_eq, overriddenSection_congr agree, sameSection]
    cases nested? other (overriddenSection other) with
    | none =>
        exact apart.agree raw other agree
    | some entries =>
        exact agree.put (overriddenSection other) _

theorem isApartFromSettings_overrideMetadata
    (provider : Provider) :
    IsApartFromSettings (overrideMetadata (providerOverride provider)) :=
  isApartFromSettings_overrideSection _ (isApartFromSettings_put (by decide) _)

theorem IsApartFromSettings.settingsSection_eq
    {change : Mapping → Mapping}
    (apart : IsApartFromSettings change)
    (raw : Mapping) :
    settingsSection (change raw) = settingsSection raw := by
  rw [settingsSection, settingsSection, apart.keeps]

theorem metadataSection?_of_nested
    {raw data : Mapping}
    (isNested : nested? raw "metadata" = some data) :
    metadataSection? raw = some data := by
  rw [metadataSection?, isNested]

/-- Where the sections differ, the one that is read is left as it is. -/
theorem metadataSection?_of_shadowed
    {raw : Mapping}
    (shadowed : IsShadowed raw)
    (provider : Provider) :
    metadataSection? (overrideMetadata (providerOverride provider) raw) =
      metadataSection? raw := by
  obtain ⟨hasDmmf, isNested⟩ := shadowed
  obtain ⟨data, isNested⟩ := Option.isSome_iff_exists.mp isNested
  have receives : overriddenSection raw = "dmmf" := if_pos hasDmmf
  rw [metadataSection?_of_nested isNested]
  apply metadataSection?_of_nested
  rw [overrideMetadata, overrideSection?_eq, receives]
  cases nested? raw "dmmf" with
  | some entries =>
      change nested? (raw.put "dmmf" _) "metadata" = _
      rw [nested?_put, if_neg (by decide), isNested]
  | none =>
      change nested? (raw.put "provider" _) "metadata" = _
      rw [nested?_put, if_neg (by decide), isNested]

/-- A document that is all metadata is read as a whole. -/
theorem metadataSection?_of_bare
    {raw data : Mapping}
    (bare : IsBare raw)
    (isSection : metadataSection? raw = some data) :
    data = raw := by
  rw [metadataSection?, bare.1, bare.2] at isSection
  dsimp only at isSection
  split at isSection
  · exact (Option.some.inj isSection).symm
  · contradiction

theorem isBare_put_provider
    {raw : Mapping}
    (bare : IsBare raw)
    (value : Value) :
    IsBare (raw.put "provider" value) := by
  constructor
  · rw [nested?_put, if_neg (by decide), bare.1]
  · rw [nested?_put, if_neg (by decide), bare.2]

/-- With the key `dmmf` a document that is not shadowed has no object under `metadata`. -/
theorem nested?_metadata_of_unshadowed
    {raw : Mapping}
    (unshadowed : ¬ IsShadowed raw)
    (hasDmmf : raw.contains "dmmf" = true) :
    nested? raw "metadata" = none := by
  rw [← Option.not_isSome_iff_eq_none]
  exact fun isNested => unshadowed ⟨hasDmmf, isNested⟩

/-- A document that is not shadowed and whose overrides go into no section is bare. -/
theorem isBare_of_unshadowed
    {raw : Mapping}
    (unshadowed : ¬ IsShadowed raw)
    (noSection : nested? raw (overriddenSection raw) = none) :
    IsBare raw := by
  cases hasDmmf : raw.contains "dmmf" with
  | true =>
      rw [overriddenSection, if_pos hasDmmf] at noSection
      exact ⟨nested?_metadata_of_unshadowed unshadowed hasDmmf, noSection⟩
  | false =>
      rw [overriddenSection, if_neg (Bool.eq_false_iff.mp hasDmmf)] at noSection
      exact ⟨noSection, nested?_eq_none_of_absent hasDmmf⟩

/-- What is put into the section that receives overrides is read, unless it is shadowed. -/
theorem metadataSection?_put_of_unshadowed
    {raw : Mapping}
    (unshadowed : ¬ IsShadowed raw)
    (new : Mapping) :
    metadataSection? (raw.put (overriddenSection raw) (.mapping new)) = some new := by
  cases hasDmmf : raw.contains "dmmf" with
  | true =>
      have noMetadata := nested?_metadata_of_unshadowed unshadowed hasDmmf
      rw [overriddenSection, if_pos hasDmmf, metadataSection?, nested?_put, nested?_put,
        if_neg (by decide), if_pos rfl, noMetadata]
      rfl
  | false =>
      rw [overriddenSection, if_neg (Bool.eq_false_iff.mp hasDmmf)]
      apply metadataSection?_of_nested
      rw [nested?_put, if_pos rfl]
      rfl

/-- Where the sections are the same, the one that is read states the provider. -/
theorem get?_provider_of_unshadowed
    {raw : Mapping}
    (unshadowed : ¬ IsShadowed raw)
    {provider : Provider}
    {data : Mapping}
    (isSection :
      metadataSection? (overrideMetadata (providerOverride provider) raw) = some data) :
    data.get? "provider" = some (.text provider.label) := by
  rw [overrideMetadata, overrideSection?_eq] at isSection
  cases found : nested? raw (overriddenSection raw) with
  | some entries =>
      rw [found, Option.map_some, Option.getD_some,
        metadataSection?_put_of_unshadowed unshadowed] at isSection
      rw [← Option.some.inj isSection]
      exact get?_put_provider entries provider
  | none =>
      rw [found, Option.map_none, Option.getD_none, overlay_providerOverride] at isSection
      have bare := isBare_put_provider (isBare_of_unshadowed unshadowed found)
        (.text provider.label)
      rw [metadataSection?_of_bare bare isSection]
      exact get?_put_provider raw provider

/-- Overrides of settings change the settings section only. -/
theorem agreeOutside_overridden
    {settings raw adapted : Mapping}
    (isAdapted : overridden ⟨settings, []⟩ raw = .ok adapted) :
    Mapping.AgreeOutside ["config"] raw adapted := by
  unfold overridden at isAdapted
  dsimp only at isAdapted
  split at isAdapted
  · cases isAdapted
    exact fun _ _ => rfl
  · simp only [overrideSettings, bind_eq_ok_iff] at isAdapted
    obtain ⟨_, ⟨merged, -, ⟨⟩⟩, ⟨⟩⟩ := isAdapted
    exact Mapping.agreeOutside_put (by decide) raw _

theorem isShadowed_congr
    {raw other : Mapping}
    (agree : Mapping.AgreeOutside ["config"] raw other) :
    IsShadowed raw ↔ IsShadowed other := by
  rw [IsShadowed, IsShadowed, Mapping.contains, Mapping.contains, nested?, nested?,
    agree "dmmf" (by decide), agree "metadata" (by decide)]

/-- Overrides of the metadata come after those of the settings. -/
theorem overridden_eq_map
    (overrides : Overrides)
    (raw : Mapping) :
    overridden overrides raw =
      (overridden ⟨overrides.settings, []⟩ raw).map fun adapted =>
        if overrides.metadata.isEmpty then adapted
        else overrideMetadata overrides.metadata adapted := by
  unfold overridden
  dsimp only
  cases overrides.settings.isEmpty with
  | true =>
      rfl
  | false =>
      cases overrideSettings overrides.settings raw <;> rfl

theorem overridden_providerOverride
    (settings raw : Mapping)
    (provider : Provider) :
    overridden ⟨settings, providerOverride provider⟩ raw =
      (overridden ⟨settings, []⟩ raw).map (overrideMetadata (providerOverride provider)) :=
  overridden_eq_map ⟨settings, providerOverride provider⟩ raw

/-- In a shadowed document the override of the provider changes nothing that is read. -/
theorem parse_of_shadowed
    {raw : Mapping}
    (shadowed : IsShadowed raw)
    (provider : Provider) :
    parse (overrideMetadata (providerOverride provider) raw) = parse raw :=
  parse_congr (metadataSection?_of_shadowed shadowed provider)
    ((isApartFromSettings_overrideMetadata provider).settingsSection_eq raw)

theorem provider_of_unshadowed
    {raw : Mapping}
    (unshadowed : ¬ IsShadowed raw)
    {provider : Provider}
    {parsed : Parsed}
    (isParsed : parse (overrideMetadata (providerOverride provider) raw) = .ok parsed) :
    parsed.document.provider = provider := by
  obtain ⟨data, isSection, isDocument, -⟩ := parse_eq_ok_iff.mp isParsed
  exact provider_of_parseMetadata (get?_provider_of_unshadowed unshadowed isSection) isDocument

theorem provider_of_overridden
    {raw : Mapping}
    (unshadowed : ¬ IsShadowed raw)
    {settings adapted : Mapping}
    {provider : Provider}
    (isAdapted : overridden ⟨settings, providerOverride provider⟩ raw = .ok adapted)
    {parsed : Parsed}
    (isParsed : parse adapted = .ok parsed) :
    parsed.document.provider = provider := by
  rw [overridden_providerOverride] at isAdapted
  cases isOverridden : overridden ⟨settings, []⟩ raw with
  | error fault =>
      rw [isOverridden] at isAdapted
      contradiction
  | ok withSettings =>
      rw [isOverridden] at isAdapted
      cases isAdapted
      have agree := agreeOutside_overridden isOverridden
      exact provider_of_unshadowed (mt (isShadowed_congr agree).mpr unshadowed) isParsed

/-- Whatever is read of an input with an override of the provider has that provider. -/
def OverridesProvider
    (tree : FileTree)
    (path : FilePath)
    (settings : Mapping)
    (provider : Provider) :
    Prop :=
  ∀ parsed,
    readInput tree path (overridden ⟨settings, providerOverride provider⟩) = .ok parsed →
      parsed.document.provider = provider

/-- The input of a shadowed document is read as it is without the override. -/
theorem readInput_of_shadowed
    {tree : FileTree}
    {path : FilePath}
    {loaded : Loaded}
    (loads : load tree path = .ok loaded)
    (shadowed : IsShadowed loaded.entries)
    (settings : Mapping)
    (provider : Provider) :
    readInput tree path (overridden ⟨settings, providerOverride provider⟩) =
      readInput tree path (overridden ⟨settings, []⟩) := by
  have same :
      overridden ⟨settings, providerOverride provider⟩ loaded.entries >>= parse =
        overridden ⟨settings, []⟩ loaded.entries >>= parse := by
    rw [overridden_providerOverride]
    cases isAdapted : overridden ⟨settings, []⟩ loaded.entries with
    | error fault =>
        rfl
    | ok adapted =>
        have stillShadowed :=
          (isShadowed_congr (agreeOutside_overridden isAdapted)).mp shadowed
        exact parse_of_shadowed stillShadowed provider
  rw [readInput, readInput, loads]
  dsimp only
  rw [same]

/-- Outside of shadowed documents an override of the provider takes effect; in one it does nothing,
so that it takes effect only where the document has the provider anyway.  A run that gets past its
input goes on with what was read. -/
theorem overridesProvider_iff_shadowed_names
    {tree : FileTree}
    {path : FilePath}
    {loaded : Loaded}
    (loads : load tree path = .ok loaded)
    (settings : Mapping)
    (provider : Provider) :
    (OverridesProvider tree path settings provider ↔
      (IsShadowed loaded.entries →
        ∀ parsed, readInput tree path (overridden ⟨settings, []⟩) = .ok parsed →
          parsed.document.provider = provider)) ∧
      ∀ parsed,
        readInput tree path (overridden ⟨settings, providerOverride provider⟩) = .ok parsed →
          ∀ options time,
            (generateFrom options time ⟨settings, providerOverride provider⟩ path).run.run tree =
              (generate options time parsed
                ((Report.empty options.isDryRun).noteLoad parsed.document path)).run.run tree := by
  refine ⟨⟨?_, ?_⟩, fun parsed isRead => generateFrom_of_readInput isRead⟩
  · intro overrides shadowed parsed isRead
    rw [← readInput_of_shadowed loads shadowed settings provider] at isRead
    exact overrides parsed isRead
  · intro names parsed isRead
    by_cases shadowed : IsShadowed loaded.entries
    · rw [readInput_of_shadowed loads shadowed settings provider] at isRead
      exact names shadowed parsed isRead
    · obtain ⟨_, isLoaded, adapted, isAdapted, isParsed⟩ := readInput_eq_ok_iff.mp isRead
      obtain rfl := Except.ok.inj (loads.symm.trans isLoaded)
      exact provider_of_overridden shadowed isAdapted isParsed

/-- A document with the section that receives overrides, and nothing under the other name. -/
def introspectedContent : String :=
  "\x7b\"dmmf\": \x7b\"datamodel\": \x7b\"models\": [\x7b\"name\": \"User\"\x7d]\x7d\x7d\x7d"

theorem overridesProvider_iff_introspectedContent :
    ∃ loaded, load (singleFile introspectedContent) singlePath = .ok loaded ∧
      ¬ IsShadowed loaded.entries ∧
      OverridesProvider (singleFile introspectedContent) singlePath [] .mongodb ∧
      (readInput (singleFile introspectedContent) singlePath
        (overridden ⟨[], providerOverride .mongodb⟩)).toOption.map (·.document.provider) =
        some .mongodb := by
  have noMetadata :
      ((load (singleFile introspectedContent) singlePath).toOption.map fun loaded =>
        (nested? loaded.entries "metadata").isSome) = some false := by
    rw [load_singleFile]
    decide +kernel
  obtain ⟨loaded, isLoaded, noSection⟩ := Option.map_eq_some_iff.mp noMetadata
  have loads := eq_ok_of_toOption isLoaded
  have unshadowed : ¬ IsShadowed loaded.entries := by
    rintro ⟨-, isNested⟩
    rw [noSection] at isNested
    contradiction
  refine ⟨loaded, loads, unshadowed, ?_, ?_⟩
  · exact (overridesProvider_iff_shadowed_names loads [] .mongodb).1.mpr fun shadowed =>
      absurd shadowed unshadowed
  · rw [readInput, load_singleFile]
    decide +kernel

/-- A document with a section of each name: the override goes into the second one, and the first
one is read. -/
def shadowedContent : String :=
  "\x7b\"metadata\": \x7b\"models\": [\x7b\"name\": \"User\"\x7d], "
    ++ "\"modelOperations\": [\x7b\"model\": \"User\", "
    ++ "\"rawOperations\": [\"findRaw\"]\x7d]\x7d, "
    ++ "\"dmmf\": \x7b\"datamodel\": \x7b\"models\": []\x7d\x7d\x7d"

theorem not_overridesProvider_shadowedContent :
    ¬ OverridesProvider (singleFile shadowedContent) singlePath [] .mongodb := by
  have readsAnother :
      (readInput (singleFile shadowedContent) singlePath
        (overridden ⟨[], providerOverride .mongodb⟩)).toOption.map (·.document.provider) =
        some .postgresql := by
    rw [readInput, load_singleFile]
    decide +kernel
  intro overrides
  obtain ⟨parsed, isRead, another⟩ := Option.map_eq_some_iff.mp readsAnother
  rw [overrides parsed (eq_ok_of_toOption isRead)] at another
  contradiction

end Source

end ZodSchemas
