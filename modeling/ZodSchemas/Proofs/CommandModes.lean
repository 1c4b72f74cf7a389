import ZodSchemas.CommandLine.Command
import ZodSchemas.Proofs.ProviderOverrides
import ZodSchemas.Proofs.SettingsSpelling

namespace ZodSchemas

/-!
# What the modes of a command read

A command that only checks a document applies its overrides in a way of its own.
It brings the settings to document spelling also where nothing overrides them,
and it leaves the metadata as it is where the document has no section for it.
Everything else is read as in a generation, so the modes agree unless one of
these two differences can be seen.
-/

open Data
open Metadata
open Generation

namespace Source

/-- The metadata section of a document is read as a document. -/
def ReadsMetadata (raw : Mapping) (document : Document) : Prop :=
  ∃ data, metadataSection? raw = some data ∧ parseMetadata data = .ok document

theorem ReadsMetadata.unique
    {raw : Mapping}
    {first second : Document}
    (reads : ReadsMetadata raw first)
    (alsoReads : ReadsMetadata raw second) :
    first = second := by
  obtain ⟨data, isSection, isFirst⟩ := reads
  obtain ⟨other, isOther, isSecond⟩ := alsoReads
  obtain rfl := Option.some.inj (isSection.symm.trans isOther)
  exact Except.ok.inj (isFirst.symm.trans isSecond)

theorem readsMetadata_of_section
    {raw other : Mapping}
    (sameSection : metadataSection? raw = metadataSection? other)
    {document : Document} :
    ReadsMetadata raw document ↔ ReadsMetadata other document := by
  rw [ReadsMetadata, ReadsMetadata, sameSection]

theorem parse_eq_ok_iff_reads
    {raw : Mapping}
    {parsed : Parsed} :
    parse raw = .ok parsed ↔
      ReadsMetadata raw parsed.document ∧
        Decode.settings (settingsSection raw) = .accepted parsed.settings := by
  rw [parse_eq_ok_iff]
  constructor
  · rintro ⟨data, isSection, isDocument, areSettings⟩
    exact ⟨⟨data, isSection, isDocument⟩, areSettings⟩
  · rintro ⟨⟨data, isSection, isDocument⟩, areSettings⟩
    exact ⟨data, isSection, isDocument, areSettings⟩

/-- A document that is all metadata is read as a whole if it shows models. -/
theorem readsMetadata_of_bare
    {raw : Mapping}
    (bare : IsBare raw)
    {document : Document} :
    ReadsMetadata raw document ↔
      (raw.contains "models" || raw.contains "datamodel") = true ∧
        parseMetadata raw = .ok document := by
  unfold ReadsMetadata metadataSection?
  rw [bare.1, bare.2]
  dsimp only
  split
  · rename_i shows
    simp [shows]
  · rename_i shows
    simp [shows]

/-- Of a document with a section of its own that section is read. -/
theorem metadataSection?_of_sectioned
    {raw : Mapping}
    (sectioned : ¬ IsBare raw) :
    metadataSection? raw = (nested? raw "metadata").or (nested? raw "dmmf") := by
  unfold metadataSection?
  cases inMetadata : nested? raw "metadata" with
  | some data =>
      rfl
  | none =>
      cases inDmmf : nested? raw "dmmf" with
      | some data =>
          rfl
      | none =>
          exact absurd ⟨inMetadata, inDmmf⟩ sectioned

section Frames

variable {raw other : Mapping}

theorem isBare_congr
    (agree : Mapping.AgreeOutside ["config"] raw other) :
    IsBare raw ↔ IsBare other := by
  rw [IsBare, IsBare, nested?_congr agree (by decide), nested?_congr agree (by decide)]

/-- The settings are no part of the metadata, also where that is the whole document. -/
theorem readsMetadata_congr
    (agree : Mapping.AgreeOutside ["config"] raw other)
    {document : Document} :
    ReadsMetadata raw document ↔ ReadsMetadata other document := by
  by_cases bare : IsBare raw
  · rw [readsMetadata_of_bare bare, readsMetadata_of_bare ((isBare_congr agree).mp bare),
      parseMetadata_congr (by decide) (by decide) agree, Mapping.contains, Mapping.contains,
      Mapping.contains, Mapping.contains, agree "models" (by decide),
      agree "datamodel" (by decide)]
  · apply readsMetadata_of_section
    rw [metadataSection?_of_sectioned bare,
      metadataSection?_of_sectioned (mt (isBare_congr agree).mpr bare),
      nested?_congr agree (by decide), nested?_congr agree (by decide)]

end Frames

/-- What is read once the settings and then the metadata of a document are changed. -/
theorem bind_map_parse_eq_ok_iff
    {raw : Mapping}
    {settingsChange : Except Fault Mapping}
    (agree :
      ∀ adapted, settingsChange = .ok adapted → Mapping.AgreeOutside ["config"] raw adapted)
    {change : Mapping → Mapping}
    (apart : IsApartFromSettings change)
    {parsed : Parsed} :
    settingsChange.map change >>= parse = .ok parsed ↔
      ReadsMetadata (change raw) parsed.document ∧
        ∃ adapted, settingsChange = .ok adapted ∧
          Decode.settings (settingsSection adapted) = .accepted parsed.settings := by
  have atAdapted (adapted : Mapping) (isAdapted : settingsChange = .ok adapted) :
      parse (change adapted) = .ok parsed ↔
        ReadsMetadata (change raw) parsed.document ∧
          Decode.settings (settingsSection adapted) = .accepted parsed.settings := by
    rw [parse_eq_ok_iff_reads, apart.settingsSection_eq,
      readsMetadata_congr (apart.agree raw adapted (agree adapted isAdapted))]
  cases settingsChange with
  | error fault =>
      constructor
      · rintro ⟨⟩
      · rintro ⟨-, _, ⟨⟩, -⟩
  | ok adapted =>
      refine (atAdapted adapted rfl).trans (and_congr_right fun _ => ?_)
      simp

section Bare

variable {raw : Mapping} (bare : IsBare raw) (provider : Provider)

include bare

/-- Overrides of the metadata go to the top of a document without a section for it. -/
theorem overrideSection?_of_bare
    (overrides : Mapping) :
    overrideSection? overrides raw = none := by
  rw [overrideSection?_eq]
  rcases overriddenSection_eq_or raw with isDmmf | isMetadata
  · rw [isDmmf, bare.2]
    rfl
  · rw [isMetadata, bare.1]
    rfl

theorem overrideMetadata_of_bare :
    overrideMetadata (providerOverride provider) raw =
      raw.put "provider" (.text provider.label) := by
  rw [overrideMetadata, overrideSection?_of_bare bare, Option.getD_none, overlay_providerOverride]

theorem readsMetadata_overrideMetadata_of_bare
    {document : Document}
    (reads : ReadsMetadata raw document) :
    ReadsMetadata (overrideMetadata (providerOverride provider) raw)
      { document with provider := provider } := by
  obtain ⟨shows, isDocument⟩ := (readsMetadata_of_bare bare).mp reads
  rw [overrideMetadata_of_bare bare, readsMetadata_of_bare (isBare_put_provider bare _)]
  constructor
  · rw [Mapping.contains, Mapping.contains, Decode.get?_put, Decode.get?_put,
      if_neg (by decide), if_neg (by decide)]
    exact shows
  · exact parseMetadata_of_provider (Mapping.agreeOutside_put (by decide) raw _)
      (get?_put_provider raw provider) isDocument

theorem provider_of_readsMetadata_of_bare
    {document : Document}
    (reads : ReadsMetadata (overrideMetadata (providerOverride provider) raw) document) :
    document.provider = provider := by
  rw [overrideMetadata_of_bare bare, readsMetadata_of_bare (isBare_put_provider bare _)] at reads
  exact provider_of_parseMetadata (get?_put_provider raw provider) reads.2

end Bare

/-- Where a document has a section for its metadata, it does not matter what is done without one:
either the section receives the override, or another one is read. -/
theorem readsMetadata_of_sectioned
    {raw : Mapping}
    (sectioned : ¬ IsBare raw)
    (provider : Provider)
    {document : Document} :
    ReadsMetadata ((overrideSection? (providerOverride provider) raw).getD raw) document ↔
      ReadsMetadata (overrideMetadata (providerOverride provider) raw) document := by
  cases isOverridden : overrideSection? (providerOverride provider) raw with
  | some changed =>
      rw [overrideMetadata, isOverridden]
      rfl
  | none =>
      have noSection : nested? raw (overriddenSection raw) = none := by
        rw [overrideSection?_eq] at isOverridden
        exact Option.map_eq_none_iff.mp isOverridden
      have shadowed : IsShadowed raw := by
        by_contra unshadowed
        exact sectioned (isBare_of_unshadowed unshadowed noSection)
      exact readsMetadata_of_section (metadataSection?_of_shadowed shadowed provider).symm

theorem agreeOutside_overrideSettings
    {overrides raw adapted : Mapping}
    (isAdapted : overrideSettings overrides raw = .ok adapted) :
    Mapping.AgreeOutside ["config"] raw adapted := by
  obtain ⟨merged, -, ⟨⟩⟩ := bind_eq_ok_iff.mp isAdapted
  exact Mapping.agreeOutside_put (by decide) raw _

end Source

namespace CommandLine

open Source

/-- The overrides that arguments ask for. -/
def Arguments.overrides (arguments : Arguments) : Overrides :=
  ⟨arguments.settingsOverrides, arguments.metadataOverrides⟩

/-- What a command that only checks applies the checks to. -/
def Checks (tree : FileTree) (path : FilePath) (arguments : Arguments) (parsed : Parsed) : Prop :=
  readInput tree path (checkedDocument arguments) = .ok parsed

/-- What a generation applies the checks to. -/
def Generates (tree : FileTree) (path : FilePath) (arguments : Arguments) (parsed : Parsed) :
    Prop :=
  readInput tree path (overridden arguments.overrides) = .ok parsed

/-- Both modes of a command apply the checks to the same, or neither gets so far. -/
def ModesAgree (tree : FileTree) (path : FilePath) (arguments : Arguments) : Prop :=
  ∀ parsed, Checks tree path arguments parsed ↔ Generates tree path arguments parsed

section Loaded

variable {tree : FileTree} {path : FilePath} {loaded : Loaded} {arguments : Arguments}
variable {parsed : Parsed}

theorem readInput_eq_ok_iff_of_loaded
    (loads : load tree path = .ok loaded)
    {adapt : Mapping → Except Fault Mapping} :
    readInput tree path adapt = .ok parsed ↔ adapt loaded.entries >>= parse = .ok parsed := by
  rw [readInput_eq_ok_iff, loads, bind_eq_ok_iff]
  simp

theorem metadataOverrides_of_provider
    {provider : Provider}
    (isProvider : arguments.provider = .value provider) :
    arguments.metadataOverrides = providerOverride provider := by
  unfold Arguments.metadataOverrides
  rw [isProvider]
  rfl

/-- Arguments override nothing of the metadata, or its provider. -/
theorem metadataOverrides_eq_or
    (arguments : Arguments) :
    arguments.metadataOverrides = [] ∨ ∃ provider, arguments.provider = .value provider := by
  unfold Arguments.metadataOverrides
  cases arguments.provider with
  | value provider =>
      exact .inr ⟨provider, rfl⟩
  | absent | blank =>
      exact .inl rfl

/-- How a command that only checks changes the metadata of a document. -/
def checkedMetadata (arguments : Arguments) (raw : Mapping) : Mapping :=
  if arguments.metadataOverrides.isEmpty then raw
  else (overrideSection? arguments.metadataOverrides raw).getD raw

/-- How a generation changes the metadata of a document. -/
def generatedMetadata (arguments : Arguments) (raw : Mapping) : Mapping :=
  if arguments.metadataOverrides.isEmpty then raw
  else overrideMetadata arguments.metadataOverrides raw

theorem checkedDocument_eq_map
    (arguments : Arguments)
    (raw : Mapping) :
    checkedDocument arguments raw =
      (overrideSettings arguments.settingsOverrides raw).map (checkedMetadata arguments) := by
  unfold checkedDocument
  cases overrideSettings arguments.settingsOverrides raw <;> rfl

theorem generatedDocument_eq_map
    (arguments : Arguments)
    (raw : Mapping) :
    overridden arguments.overrides raw =
      (overridden ⟨arguments.settingsOverrides, []⟩ raw).map (generatedMetadata arguments) :=
  overridden_eq_map arguments.overrides raw

/-- Settings are overridden only where something overrides them. -/
theorem overridden_settings_eq
    (overrides raw : Mapping) :
    overridden ⟨overrides, []⟩ raw =
      if overrides = [] then .ok raw else overrideSettings overrides raw := by
  cases overrides with
  | nil =>
      rfl
  | cons override rest =>
      rw [if_neg (List.cons_ne_nil _ _)]
      unfold overridden
      cases overrideSettings (override :: rest) raw <;> rfl

theorem checks_iff
    (loads : load tree path = .ok loaded) :
    Checks tree path arguments parsed ↔
      ReadsMetadata (checkedMetadata arguments loaded.entries) parsed.document ∧
        ∃ adapted, overrideSettings arguments.settingsOverrides loaded.entries = .ok adapted ∧
          Decode.settings (settingsSection adapted) = .accepted parsed.settings := by
  have apart : IsApartFromSettings (checkedMetadata arguments) := by
    unfold checkedMetadata
    split
    · exact isApartFromSettings_id
    · exact isApartFromSettings_overrideSection _ isApartFromSettings_id
  rw [Checks, readInput_eq_ok_iff_of_loaded loads, checkedDocument_eq_map]
  exact bind_map_parse_eq_ok_iff (fun _ => agreeOutside_overrideSettings) apart

theorem generates_iff
    (loads : load tree path = .ok loaded) :
    Generates tree path arguments parsed ↔
      ReadsMetadata (generatedMetadata arguments loaded.entries) parsed.document ∧
        ∃ adapted,
          overridden ⟨arguments.settingsOverrides, []⟩ loaded.entries = .ok adapted ∧
            Decode.settings (settingsSection adapted) = .accepted parsed.settings := by
  have apart : IsApartFromSettings (generatedMetadata arguments) := by
    unfold generatedMetadata
    rcases metadataOverrides_eq_or arguments with none | ⟨provider, isProvider⟩
    · rw [none]
      exact isApartFromSettings_id
    · rw [metadataOverrides_of_provider isProvider]
      exact isApartFromSettings_overrideMetadata provider
  rw [Generates, readInput_eq_ok_iff_of_loaded loads, generatedDocument_eq_map]
  exact bind_map_parse_eq_ok_iff (fun _ => agreeOutside_overridden) apart

/-- The settings of a generation are those of a check, if something overrides them or each of their
entries is one of a field. -/
theorem generated_settings_iff
    (loads : load tree path = .ok loaded)
    {overrides : Mapping}
    {settings : Settings} :
    (∃ adapted, overridden ⟨overrides, []⟩ loaded.entries = .ok adapted ∧
        Decode.settings (settingsSection adapted) = .accepted settings) ↔
      (overrides ≠ [] ∨ IsSpelledSection (configValue loaded.entries)) ∧
        ∃ adapted, overrideSettings overrides loaded.entries = .ok adapted ∧
          Decode.settings (settingsSection adapted) = .accepted settings := by
  rw [overridden_settings_eq]
  by_cases nothing : overrides = []
  · subst nothing
    have apart : (configValue loaded.entries).HasKeysApart :=
      (hasKeysApart_of_load loads).getD_get? "config"
    have reads := @settings_eq_accepted_iff loaded.entries apart settings
    simp [reads]
  · simp [nothing]

/-- Where no provider is set at the top of a document, both modes read the same metadata. -/
theorem checked_metadata_iff
    {raw : Mapping}
    (sectioned : ∀ provider, arguments.provider = .value provider → ¬ IsBare raw)
    {document : Document} :
    ReadsMetadata (checkedMetadata arguments raw) document ↔
      ReadsMetadata (generatedMetadata arguments raw) document := by
  unfold checkedMetadata generatedMetadata
  rcases metadataOverrides_eq_or arguments with none | ⟨provider, isProvider⟩
  · rw [none]
    rfl
  · rw [metadataOverrides_of_provider isProvider]
    exact readsMetadata_of_sectioned (sectioned provider isProvider) provider

theorem checkedMetadata_of_bare
    {raw : Mapping}
    (bare : IsBare raw) :
    checkedMetadata arguments raw = raw := by
  unfold checkedMetadata
  split
  · rfl
  · rw [overrideSection?_of_bare bare, Option.getD_none]

theorem generatedMetadata_of_provider
    {provider : Provider}
    (isProvider : arguments.provider = .value provider)
    (raw : Mapping) :
    generatedMetadata arguments raw = overrideMetadata (providerOverride provider) raw := by
  rw [generatedMetadata, metadataOverrides_of_provider isProvider]
  rfl

/-- Both modes read the same of a document that is all metadata if it has the provider anyway. -/
theorem checked_metadata_iff_of_bare
    {raw : Mapping}
    (bare : IsBare raw)
    {stated : Document}
    (reads : ReadsMetadata raw stated)
    (isProvider : arguments.provider = .value stated.provider)
    {document : Document} :
    ReadsMetadata (checkedMetadata arguments raw) document ↔
      ReadsMetadata (generatedMetadata arguments raw) document := by
  have alsoReads := readsMetadata_overrideMetadata_of_bare bare stated.provider reads
  rw [checkedMetadata_of_bare bare, generatedMetadata_of_provider isProvider]
  constructor
  · intro isRead
    rw [isRead.unique reads]
    exact alsoReads
  · intro isRead
    rw [isRead.unique alsoReads]
    exact reads

/-- Both modes read the same metadata unless a provider is set at the top of a document and is
another one than the document has. -/
theorem checked_metadata_iff_of_provider
    (loads : load tree path = .ok loaded)
    (sameProvider :
      ∀ provider, arguments.provider = .value provider → IsBare loaded.entries →
        ∃ parsed, Checks tree path arguments parsed ∧ parsed.document.provider = provider)
    {document : Document} :
    ReadsMetadata (checkedMetadata arguments loaded.entries) document ↔
      ReadsMetadata (generatedMetadata arguments loaded.entries) document := by
  by_cases setsAtTop : ∃ provider, arguments.provider = .value provider ∧ IsBare loaded.entries
  · obtain ⟨provider, isProvider, bare⟩ := setsAtTop
    obtain ⟨checked, checks, rfl⟩ := sameProvider provider isProvider bare
    have isRead := ((checks_iff loads).mp checks).1
    rw [checkedMetadata_of_bare bare] at isRead
    exact checked_metadata_iff_of_bare bare isRead isProvider
  · exact checked_metadata_iff fun provider isProvider bare =>
      setsAtTop ⟨provider, isProvider, bare⟩

/-- What a command shows that only checks a document. -/
def checkOutcome (path : FilePath) (parsed : Parsed) : Outcome :=
  let findings := Check.full parsed.settings parsed.document
  .ofLines (if findings.hasErrors then validationCode else successCode)
    (checkReport path parsed.document (.zero false) findings)

theorem check_of_checks
    (checks : Checks tree path arguments parsed) :
    (check arguments path).run.run tree = (.ok (checkOutcome path parsed), tree) := by
  unfold check
  rw [run_get_bind, show readInput tree path (checkedDocument arguments) = .ok parsed from checks]
  rfl

/-- The modes agree wherever neither gets to the checks.  Otherwise they agree exactly if the
settings are overridden or have no other entry than those of their fields, and if a provider that
is set for a document without a section for its metadata is the one that it has anyway.  Each mode
goes on with what it has read. -/
theorem modesAgree_iff
    (loads : load tree path = .ok loaded)
    (arguments : Arguments) :
    (ModesAgree tree path arguments ↔
      ((∃ parsed, Checks tree path arguments parsed ∨ Generates tree path arguments parsed) →
        (arguments.settingsOverrides ≠ [] ∨ IsSpelledSection (configValue loaded.entries)) ∧
          ∀ provider, arguments.provider = .value provider → IsBare loaded.entries →
            ∃ parsed, Checks tree path arguments parsed ∧
              parsed.document.provider = provider)) ∧
      ∀ parsed,
        (Checks tree path arguments parsed →
          (check arguments path).run.run tree = (.ok (checkOutcome path parsed), tree)) ∧
        (Generates tree path arguments parsed →
          ∀ options time,
            (generateFrom options time arguments.overrides path).run.run tree =
              (Generation.generate options time parsed
                ((Report.empty options.isDryRun).noteLoad parsed.document path)).run.run tree) := by
  refine ⟨⟨?_, ?_⟩, fun parsed => ⟨check_of_checks, generateFrom_of_readInput⟩⟩
  · rintro agree ⟨parsed, reads⟩
    have checks : Checks tree path arguments parsed :=
      reads.elim id (agree parsed).mpr
    have generates := (agree parsed).mp checks
    obtain ⟨isDocument, areSettings⟩ := (generates_iff loads).mp generates
    refine ⟨((generated_settings_iff loads).mp areSettings).1, fun provider isProvider bare => ?_⟩
    rw [generatedMetadata_of_provider isProvider] at isDocument
    exact ⟨parsed, checks, provider_of_readsMetadata_of_bare bare provider isDocument⟩
  · intro conditions parsed
    by_cases reads :
        ∃ parsed, Checks tree path arguments parsed ∨ Generates tree path arguments parsed
    · obtain ⟨settingsAgree, providerAgrees⟩ := conditions reads
      rw [checks_iff loads, generates_iff loads, generated_settings_iff loads]
      exact and_congr (checked_metadata_iff_of_provider loads providerAgrees)
        (iff_and_self.mpr fun _ => settingsAgree)
    · have neither := not_exists.mp reads parsed
      exact iff_of_false (mt .inl neither) (mt .inr neither)

end Loaded

/-- A document with a section for its metadata, and a setting in its plain spelling. -/
def sectionedContent : String :=
  "\x7b\"dmmf\": \x7b\"datamodel\": \x7b\"models\": [\x7b\"name\": \"User\"\x7d]\x7d\x7d, "
    ++ "\"config\": \x7b\"is_generate_select\": true\x7d\x7d"

/-- Arguments that set a provider. -/
def providerArguments : Arguments :=
  { Arguments.none with provider := .value .mongodb }

theorem modesAgree_sectionedContent :
    ∃ loaded, load (singleFile sectionedContent) singlePath = .ok loaded ∧
      ModesAgree (singleFile sectionedContent) singlePath providerArguments ∧
      (readInput (singleFile sectionedContent) singlePath
        (checkedDocument providerArguments)).toOption.map (·.document.provider) =
        some .mongodb := by
  have sections :
      ((load (singleFile sectionedContent) singlePath).toOption.map fun loaded =>
        (Decode.settings (settingsSection loaded.entries),
          (nested? loaded.entries "dmmf").isSome)) =
        some (.accepted { Settings.default with emitsSelect := true }, true) := by
    rw [load_singleFile]
    decide +kernel
  obtain ⟨loaded, isLoaded, areSections⟩ := Option.map_eq_some_iff.mp sections
  obtain ⟨accepted, hasSection⟩ := Prod.mk.inj areSections
  have loads := eq_ok_of_toOption isLoaded
  refine ⟨loaded, loads, ?_, ?_⟩
  · refine (modesAgree_iff loads providerArguments).1.mpr fun _ => ⟨?_, ?_⟩
    · exact .inr (isSpelledSection_of_accepted accepted)
    · intro provider _ bare
      rw [bare.2] at hasSection
      contradiction
  · rw [readInput, load_singleFile]
    decide +kernel

/-- A document that is all metadata: only a generation overrides its provider. -/
def bareContent : String :=
  "\x7b\"models\": [\x7b\"name\": \"User\"\x7d], \"modelOperations\": "
    ++ "[\x7b\"model\": \"User\", \"rawOperations\": [\"findRaw\"]\x7d]\x7d"

theorem not_modesAgree_bareContent :
    ¬ ModesAgree (singleFile bareContent) singlePath providerArguments := by
  have providers :
      (readInput (singleFile bareContent) singlePath
          (checkedDocument providerArguments)).toOption.map (·.document.provider) =
          some .postgresql ∧
        (readInput (singleFile bareContent) singlePath
          (overridden providerArguments.overrides)).toOption.map (·.document.provider) =
          some .mongodb := by
    rw [readInput, readInput, load_singleFile]
    decide +kernel
  intro agree
  obtain ⟨parsed, isRead, isPostgresql⟩ := Option.map_eq_some_iff.mp providers.1
  have generates : Generates (singleFile bareContent) singlePath providerArguments parsed :=
    (agree parsed).mp (eq_ok_of_toOption isRead)
  have isMongodb := providers.2
  rw [show readInput _ _ (overridden providerArguments.overrides) = .ok parsed from generates]
    at isMongodb
  have same : parsed.document.provider = .mongodb := Option.some.inj isMongodb
  rw [isPostgresql] at same
  contradiction

end CommandLine

end ZodSchemas
