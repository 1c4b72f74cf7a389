import ZodSchemas.CommandLine.Command
import ZodSchemas.Proofs.SectionReading
import ZodSchemas.Proofs.SettingsSpelling

namespace ZodSchemas

/-!
# Overrides of settings

Overrides replace the values of their own fields and leave the others as they
are.  Both sides are brought to document spelling first, where each field has one
key; so a field has the value of its override, and without one that of the
settings section.
-/

open Data
open Decode
open Decode.Decoded

namespace Data.Mapping

/-- The value under a key after an overlay is that of the upper entries, if they have one. -/
theorem get?_overlay
    {overrides : Mapping}
    (apart : KeysApart overrides)
    (texts : ∀ entry ∈ overrides, ∃ key, entry.1 = .text key)
    (base : Mapping)
    (name : String) :
    (base.overlay overrides).get? name = (overrides.get? name).or (base.get? name) := by
  induction overrides generalizing base with
  | nil =>
      rfl
  | cons entry rest inductionHypothesis =>
      obtain ⟨key, value⟩ := entry
      obtain ⟨⟨text, rfl⟩, restTexts⟩ := List.forall_mem_cons.mp texts
      obtain ⟨later, restApart⟩ := List.pairwise_cons.mp apart
      -- The later keys are different ones, so they leave what this entry has put.
      change ((base.put text value).overlay rest).get? name = _
      rw [inductionHypothesis restApart restTexts, get?_put, get?_cons]
      by_cases isKey : text = name
      · have notLater : Mapping.get? rest name = none := by
          refine get?_eq_none_iff.mpr fun other member isOther => ?_
          have differs := later _ (List.mem_map_of_mem member)
          simp [isKey, isOther] at differs
        rw [notLater, if_pos isKey, if_pos (congrArg _ isKey)]
        rfl
      · rw [if_neg isKey, if_neg (fun same => isKey (Scalar.text.inj same))]

theorem mem_keys_insertEntry
    {entries : List (Scalar × α)}
    {key other : Scalar}
    {value : α}
    (member : other ∈ (insertEntry key value entries).map (·.1)) :
    other ∈ entries.map (·.1) ∨ other = key := by
  induction entries with
  | nil =>
      exact .inr (List.mem_singleton.mp member)
  | cons first rest inductionHypothesis =>
      rw [insertEntry] at member
      split at member
      · exact .inl member
      · rw [List.map_cons, List.mem_cons] at member ⊢
        rcases member with isFirst | member
        · exact .inl (.inl isFirst)
        · exact (inductionHypothesis member).imp_left .inr

/-- An overlay brings in no keys but those of its two sides. -/
theorem mem_keys_overlay
    {base overrides : Mapping}
    {key : Scalar}
    (member : key ∈ (base.overlay overrides).map (·.1)) :
    key ∈ base.map (·.1) ∨ key ∈ overrides.map (·.1) := by
  induction overrides generalizing base with
  | nil =>
      exact .inl member
  | cons entry rest inductionHypothesis =>
      rw [List.map_cons, List.mem_cons]
      rcases inductionHypothesis member with isEarlier | isLater
      · rcases mem_keys_insertEntry isEarlier with inBase | isEntry
        · exact .inl inBase
        · exact .inr (.inl isEntry)
      · exact .inr (.inr isLater)

end Data.Mapping

namespace Source

open Data.Mapping

section Merged

variable {entries base overrides : Mapping}

/-- Every key is the document spelling of a setting. -/
def IsInDocumentSpelling (entries : Mapping) : Prop :=
  ∀ key ∈ entries.map (·.1), ∃ name ∈ settingsNames, key = .text name.document

theorem IsInDocumentSpelling.isSpelled
    (inDocument : IsInDocumentSpelling entries) :
    IsSpelled settingsNames entries := by
  intro entry member
  obtain ⟨name, isName, isKey⟩ := inDocument entry.1 (List.mem_map_of_mem member)
  exact ⟨name, isName, name.document, .inl rfl, isKey⟩

theorem IsInDocumentSpelling.overlay
    (inDocument : IsInDocumentSpelling base)
    (alsoInDocument : IsInDocumentSpelling overrides) :
    IsInDocumentSpelling (base.overlay overrides) :=
  fun key member => (mem_keys_overlay member).elim (inDocument key) (alsoInDocument key)

theorem isInDocumentSpelling_respelled
    (spelled : IsSpelled settingsNames entries) :
    IsInDocumentSpelling (entries.map respelled) := by
  rw [IsInDocumentSpelling, List.map_map]
  refine List.forall_mem_map.mpr fun entry member => ?_
  obtain ⟨name, isName, _, -, -, atEntry⟩ := exists_respelled spelled member
  exact ⟨name, isName, congrArg Prod.fst atEntry⟩

/-- In document spelling a setting has the value under its document spelling. -/
theorem IsInDocumentSpelling.find?_eq
    (inDocument : IsInDocumentSpelling entries)
    {name : FieldName}
    (isName : name ∈ settingsNames) :
    (name.find? entries).map (·.2) = entries.get? name.document := by
  rw [find?_map_snd]
  by_cases oneSpelling : name.plain = name.document
  · rw [oneSpelling, Option.or_self]
  · -- A plain spelling can only be there as the document spelling of another setting.
    have noPlain : entries.get? name.plain = none := by
      refine get?_eq_none_iff.mpr fun entry member isPlain => ?_
      obtain ⟨other, isOther, isKey⟩ := inDocument entry.1 (List.mem_map_of_mem member)
      have same : name.plain = other.document :=
        Scalar.text.inj (isPlain.symm.trans isKey)
      obtain rfl := eq_of_document name isName other isOther (.inr same)
      exact oneSpelling same
    rw [noPlain, Option.or_none]

/-- The value of a setting is that of its override, if it has one. -/
theorem find?_overlay_respelled
    (apart : KeysApart base)
    (spelled : IsSpelled settingsNames base)
    (overridesApart : KeysApart overrides)
    (overridesSpelled : IsSpelled settingsNames overrides)
    {name : FieldName}
    (isName : name ∈ settingsNames) :
    (name.find? (Mapping.overlay (base.map respelled) (overrides.map respelled))).map (·.2) =
      ((name.find? overrides).map (·.2)).or ((name.find? base).map (·.2)) := by
  have atBase := isInDocumentSpelling_respelled spelled
  have atOverrides := isInDocumentSpelling_respelled overridesSpelled
  have texts : ∀ entry ∈ overrides.map respelled, ∃ key, entry.1 = .text key := by
    intro entry member
    obtain ⟨name, -, isKey⟩ := atOverrides entry.1 (List.mem_map_of_mem member)
    exact ⟨_, isKey⟩
  rw [(atBase.overlay atOverrides).find?_eq isName,
    get?_overlay (keysApart_respelled overridesSpelled overridesApart) texts,
    ← atOverrides.find?_eq isName, ← atBase.find?_eq isName,
    find?_respelled overridesSpelled overridesApart isName, find?_respelled spelled apart isName]

/-- Settings and overrides whose keys are those of fields can be merged. -/
theorem mergeSettings_of_spelled
    (apart : KeysApart base)
    (spelled : IsSpelled settingsNames base)
    (overridesApart : KeysApart overrides)
    (overridesSpelled : IsSpelled settingsNames overrides) :
    mergeSettings (.mapping base) (.mapping overrides) =
      .ok (Mapping.overlay (base.map respelled) (overrides.map respelled)) := by
  rw [mergeSettings, documentEntries_of_spelled spelled apart,
    documentEntries_of_spelled overridesSpelled overridesApart]
  rfl

end Merged

/-- Each setting is what its value is read as. -/
structure ReadsSettings (entries : Mapping) (settings : Settings) : Prop where
  output :
    ReadsOr text Settings.default.output settings.output
      (((FieldName.single "output").find? entries).map (·.2))
  emitsSelect :
    ReadsOr boolean false settings.emitsSelect
      ((FieldName.find? ⟨"isGenerateSelect", "is_generate_select"⟩ entries).map (·.2))
  emitsInclude :
    ReadsOr boolean false settings.emitsInclude
      ((FieldName.find? ⟨"isGenerateInclude", "is_generate_include"⟩ entries).map (·.2))
  client :
    ReadsOr Decode.client Client.default settings.client
      (((FieldName.single "client").find? entries).map (·.2))
  workers :
    ReadsOr Decode.workers 1 settings.workers
      (((FieldName.single "workers").find? entries).map (·.2))
  cleansOutput :
    ReadsOr boolean false settings.cleansOutput
      ((FieldName.find? ⟨"cleanOutput", "clean_output"⟩ entries).map (·.2))
  writesManifest :
    ReadsOr boolean false settings.writesManifest
      ((FieldName.find? ⟨"writeManifest", "write_manifest"⟩ entries).map (·.2))

theorem optional_eq_accepted_iff_find?
    {name : FieldName}
    {absent : α}
    {decode : Value → Decoded α}
    {entries : Mapping}
    {result : α} :
    Decode.optional name absent decode entries = .accepted result ↔
      ReadsOr decode absent result ((name.find? entries).map (·.2)) := by
  rw [optional_eq_accepted_iff, find?_map_snd]

/-- Settings are accepted exactly if their keys are those of fields, and each field is what its
value is read as. -/
theorem settings_eq_accepted_iff_readsSettings
    {entries : Mapping}
    {settings : Settings} :
    Decode.settings (.mapping entries) = .accepted settings ↔
      IsSpelled settingsNames entries ∧ ReadsSettings entries settings := by
  unfold Decode.settings
  rw [closedRecord_eq_accepted_iff]
  simp only [seq_eq_accepted_iff, map_eq_accepted_iff, optional_eq_accepted_iff_find?]
  constructor
  · rintro ⟨-, ⟨_, manifest, ⟨_, cleans, ⟨_, workers, ⟨_, client, ⟨_, includes, ⟨_, selects,
      ⟨output, isOutput, rfl⟩, isSelect, rfl⟩, isInclude, rfl⟩, isClient, rfl⟩, areWorkers, rfl⟩,
      isClean, rfl⟩, isManifest, rfl⟩, spelled⟩
    exact ⟨spelled, isOutput, isSelect, isInclude, isClient, areWorkers, isClean, isManifest⟩
  · rintro ⟨spelled, reads⟩
    exact ⟨nameable_of_spelled spelled, ⟨_, _, ⟨_, _, ⟨_, _, ⟨_, _, ⟨_, _, ⟨_, _,
      ⟨_, reads.output, rfl⟩, reads.emitsSelect, rfl⟩, reads.emitsInclude, rfl⟩, reads.client,
      rfl⟩, reads.workers, rfl⟩, reads.cleansOutput, rfl⟩, reads.writesManifest, rfl⟩, spelled⟩

/-! Overrides -/

/-- What a command overrides of the settings; the client is not among it. -/
structure SettingsPatch where
  output : Option String
  emitsSelect : Option Bool
  emitsInclude : Option Bool
  workers : Option Int
  cleansOutput : Option Bool
  writesManifest : Option Bool
deriving Repr, DecidableEq

namespace SettingsPatch

/-- Settings with the overridden ones replaced. -/
def applyTo (patch : SettingsPatch) (settings : Settings) : Settings where
  output := patch.output.getD settings.output
  emitsSelect := patch.emitsSelect.getD settings.emitsSelect
  emitsInclude := patch.emitsInclude.getD settings.emitsInclude
  client := settings.client
  workers := patch.workers.getD settings.workers
  cleansOutput := patch.cleansOutput.getD settings.cleansOutput
  writesManifest := patch.writesManifest.getD settings.writesManifest

/-- Entries that give the values of a patch and nothing else, each field in one of its spellings
and in any place; a number of workers is within its bounds. -/
structure IsGivenBy (patch : SettingsPatch) (overrides : Mapping) : Prop where
  apart : KeysApart overrides
  spelled : IsSpelled settingsNames overrides
  output :
    ((FieldName.single "output").find? overrides).map (·.2) = patch.output.map .text
  emitsSelect :
    (FieldName.find? ⟨"isGenerateSelect", "is_generate_select"⟩ overrides).map (·.2) =
      patch.emitsSelect.map .bool
  emitsInclude :
    (FieldName.find? ⟨"isGenerateInclude", "is_generate_include"⟩ overrides).map (·.2) =
      patch.emitsInclude.map .bool
  noClient : ((FieldName.single "client").find? overrides).map (·.2) = none
  workers : ((FieldName.single "workers").find? overrides).map (·.2) = patch.workers.map .int
  cleansOutput :
    (FieldName.find? ⟨"cleanOutput", "clean_output"⟩ overrides).map (·.2) =
      patch.cleansOutput.map .bool
  writesManifest :
    (FieldName.find? ⟨"writeManifest", "write_manifest"⟩ overrides).map (·.2) =
      patch.writesManifest.map .bool
  inBounds : ∀ number ∈ patch.workers, 1 ≤ number ∧ number ≤ 64

end SettingsPatch

section Patched

variable {base overrides : Mapping} {settings : Settings} {patch : SettingsPatch}

/-- A number of workers within its bounds is read as itself. -/
theorem workers_int
    {number : Int}
    (inBounds : 1 ≤ number ∧ number ≤ 64) :
    Decode.workers (.int number) = .accepted number := by
  have noCause :
      (if number < 1 then some (Cause.below 1)
        else if 64 < number then some (Cause.above 64) else none) = none := by
    rw [if_neg (Int.not_lt.mpr inBounds.1), if_neg (Int.not_lt.mpr inBounds.2)]
  rw [Decode.workers, integerWithin]
  exact check_eq_accepted_iff.mpr ⟨rfl, noCause⟩

/-- A value that is read as itself takes the place of another one. -/
theorem readsOr_override
    {decode : Value → Decoded α}
    {absent result : α}
    {stated : Option Value}
    (reads : ReadsOr decode absent result stated)
    {encode : α → Value}
    {override : Option α}
    (itself : ∀ value ∈ override, decode (encode value) = .accepted value) :
    ReadsOr decode absent (override.getD result) ((override.map encode).or stated) := by
  cases override with
  | none =>
      exact reads
  | some value =>
      exact itself value rfl

theorem readsSettings_override
    (apart : KeysApart base)
    (spelled : IsSpelled settingsNames base)
    (reads : ReadsSettings base settings)
    (given : patch.IsGivenBy overrides) :
    ReadsSettings (Mapping.overlay (base.map respelled) (overrides.map respelled))
      (patch.applyTo settings) := by
  have atField {name : FieldName} (isName : name ∈ settingsNames) :=
    find?_overlay_respelled apart spelled given.apart given.spelled isName
  constructor
  case output =>
    rw [atField (by decide), given.output]
    exact readsOr_override reads.output fun _ _ => rfl
  case emitsSelect =>
    rw [atField (by decide), given.emitsSelect]
    exact readsOr_override reads.emitsSelect fun _ _ => rfl
  case emitsInclude =>
    rw [atField (by decide), given.emitsInclude]
    exact readsOr_override reads.emitsInclude fun _ _ => rfl
  case client =>
    rw [atField (by decide), given.noClient]
    exact reads.client
  case workers =>
    rw [atField (by decide), given.workers]
    exact readsOr_override reads.workers fun number isGiven =>
      workers_int (given.inBounds number isGiven)
  case cleansOutput =>
    rw [atField (by decide), given.cleansOutput]
    exact readsOr_override reads.cleansOutput fun _ _ => rfl
  case writesManifest =>
    rw [atField (by decide), given.writesManifest]
    exact readsOr_override reads.writesManifest fun _ _ => rfl

end Patched

/-! The entries of a patch -/

/-- The entries of those fields that have a value. -/
def statedEntries (fields : List (String × Option Value)) : List (String × Value) :=
  fields.filterMap fun field => field.2.map (field.1, ·)

theorem statedEntries_append
    (first second : List (String × Option Value)) :
    statedEntries (first ++ second) = statedEntries first ++ statedEntries second :=
  List.filterMap_append

theorem keys_statedEntries
    (fields : List (String × Option Value)) :
    ((statedEntries fields).map (·.1)).Sublist (fields.map (·.1)) := by
  induction fields with
  | nil =>
      exact .refl []
  | cons field rest inductionHypothesis =>
      obtain ⟨key, stated⟩ := field
      cases stated with
      | none =>
          exact inductionHypothesis.cons key
      | some value =>
          exact inductionHypothesis.cons_cons key

theorem lookup_statedEntries
    {fields : List (String × Option Value)}
    (apart : (fields.map (·.1)).Nodup)
    (name : String) :
    (statedEntries fields).lookup name = (fields.lookup name).join := by
  induction fields with
  | nil =>
      rfl
  | cons field rest inductionHypothesis =>
      obtain ⟨key, stated⟩ := field
      obtain ⟨notLater, restApart⟩ := List.nodup_cons.mp apart
      have atRest := inductionHypothesis restApart
      by_cases isKey : name = key
      · subst isKey
        rw [List.lookup_cons_self, Option.join_some]
        cases stated with
        | none =>
            have noEntry : rest.lookup name = none := by
              rw [List.lookup_eq_none_iff]
              intro later member
              refine bne_iff_ne.mpr fun same => ?_
              exact notLater (List.mem_map.mpr ⟨later, member, same.symm⟩)
            change (statedEntries rest).lookup name = none
            rw [atRest, noEntry]
            rfl
        | some value =>
            exact List.lookup_cons_self
      · rw [List.lookup_cons, beq_false_of_ne isKey, ← atRest]
        cases stated with
        | none =>
            rfl
        | some value =>
            change ((key, value) :: statedEntries rest).lookup name = _
            rw [List.lookup_cons, beq_false_of_ne isKey]

namespace SettingsPatch

/-- The fields of a patch with their values, in the spelling and in the order of a command. -/
def fields (patch : SettingsPatch) : List (String × Option Value) :=
  [("output", patch.output.map .text), ("is_generate_select", patch.emitsSelect.map .bool),
    ("is_generate_include", patch.emitsInclude.map .bool), ("workers", patch.workers.map .int),
    ("clean_output", patch.cleansOutput.map .bool),
    ("write_manifest", patch.writesManifest.map .bool)]

/-- A patch as overrides. -/
def entries (patch : SettingsPatch) : Mapping :=
  named (statedEntries patch.fields)

/-- The keys of a patch. -/
def keys : List String :=
  ["output", "is_generate_select", "is_generate_include", "workers", "clean_output",
    "write_manifest"]

variable {patch : SettingsPatch}

theorem keys_entries
    (patch : SettingsPatch) :
    (patch.entries.map (·.1)).Sublist (keys.map .text) := by
  have sublist := (keys_statedEntries patch.fields).map Scalar.text
  rw [List.map_map] at sublist
  rw [entries, named, List.map_map]
  exact sublist

theorem keysApart_entries
    (patch : SettingsPatch) :
    KeysApart patch.entries := by
  have apart : (keys.map Scalar.text).Pairwise fun first second => first.same second = false := by
    decide
  exact apart.sublist (keys_entries patch)

theorem exists_key_of_mem_entries
    {entry : Scalar × Value}
    (member : entry ∈ patch.entries) :
    ∃ key ∈ keys, entry.1 = .text key := by
  have isKey := (keys_entries patch).subset (List.mem_map_of_mem member)
  obtain ⟨key, isOverride, same⟩ := List.mem_map.mp isKey
  exact ⟨key, isOverride, same.symm⟩

theorem isSpelled_entries
    (patch : SettingsPatch) :
    IsSpelled settingsNames patch.entries := by
  have spelled : ∀ key ∈ keys, ∃ name ∈ settingsNames,
      key = name.document ∨ key = name.plain ∧ name.document ∉ keys := by
    decide
  intro entry member
  obtain ⟨key, isKey, same⟩ := exists_key_of_mem_entries member
  obtain ⟨name, isName, isSpelling⟩ := spelled key isKey
  refine ⟨name, isName, key, isSpelling.imp_right fun ⟨isPlain, notKey⟩ => ⟨isPlain, ?_⟩, same⟩
  refine get?_eq_none_iff.mpr fun other isOther isDocument => ?_
  obtain ⟨otherKey, isOtherKey, sameToo⟩ := exists_key_of_mem_entries isOther
  exact notKey (Scalar.text.inj (isDocument.symm.trans sameToo) ▸ isOtherKey)

theorem find?_entries
    (patch : SettingsPatch)
    (name : FieldName) :
    (name.find? patch.entries).map (·.2) =
      (patch.fields.lookup name.document).join.or (patch.fields.lookup name.plain).join := by
  have apart : (patch.fields.map (·.1)).Nodup := by
    change keys.Nodup
    decide
  rw [find?_map_snd, entries, get?_named, get?_named, lookup_statedEntries apart,
    lookup_statedEntries apart]

/-- Each patch is given by its entries. -/
theorem isGivenBy_entries
    (inBounds : ∀ number ∈ patch.workers, 1 ≤ number ∧ number ≤ 64) :
    patch.IsGivenBy patch.entries := by
  constructor
  case apart =>
    exact keysApart_entries patch
  case spelled =>
    exact isSpelled_entries patch
  case inBounds =>
    exact inBounds
  all_goals
    rw [find?_entries]
    simp [fields, FieldName.single, List.lookup_cons]

end SettingsPatch

end Source

namespace CommandLine

open Source

/-- What a flag overrides: nothing, or its setting with true. -/
def flagPatch (isGiven : Bool) : Option Bool :=
  if isGiven then some true else none

/-- The patch of the settings that arguments ask for. -/
def Arguments.settingsPatch (arguments : Arguments) : SettingsPatch where
  output := arguments.output.value?
  emitsSelect := flagPatch arguments.emitsSelect
  emitsInclude := flagPatch arguments.emitsInclude
  workers := arguments.workers.value?
  cleansOutput := flagPatch arguments.cleansOutput
  writesManifest := flagPatch arguments.writesManifest

theorem flagOverride_eq
    (key : String)
    (isGiven : Bool) :
    Arguments.flagOverride key isGiven =
      statedEntries [(key, (flagPatch isGiven).map .bool)] := by
  cases isGiven <;> rfl

theorem givenOverride_eq
    (key : String)
    (encode : α → Value)
    {given : Given α}
    (notBlank : given ≠ .blank) :
    Arguments.givenOverride key encode given =
      statedEntries [(key, given.value?.map encode)] := by
  cases given with
  | absent | value =>
      rfl
  | blank =>
      contradiction

/-- What a command overrides of the settings are the entries of its patch, unless a value is
blank. -/
theorem settingsOverrides_eq_entries
    {arguments : Arguments}
    (hasOutput : arguments.output ≠ .blank)
    (hasWorkers : arguments.workers ≠ .blank) :
    arguments.settingsOverrides = arguments.settingsPatch.entries := by
  unfold Arguments.settingsOverrides
  rw [givenOverride_eq _ _ hasOutput, givenOverride_eq _ _ hasWorkers]
  simp only [flagOverride_eq, ← statedEntries_append]
  rfl

end CommandLine

namespace Source

/-- Where settings are accepted, they are accepted with overrides as well, and the fields that are
overridden are the only ones that change. -/
theorem settings_mergeSettings
    {base overrides : Mapping}
    {settings : Settings}
    {patch : SettingsPatch}
    (apart : KeysApart base)
    (accepted : Decode.settings (.mapping base) = .accepted settings)
    (given : patch.IsGivenBy overrides) :
    ∃ merged, mergeSettings (.mapping base) (.mapping overrides) = .ok merged ∧
      Decode.settings (.mapping merged) = .accepted (patch.applyTo settings) := by
  obtain ⟨spelled, reads⟩ := settings_eq_accepted_iff_readsSettings.mp accepted
  have inDocument := (isInDocumentSpelling_respelled spelled).overlay
    (isInDocumentSpelling_respelled given.spelled)
  exact ⟨_, mergeSettings_of_spelled apart spelled given.apart given.spelled,
    settings_eq_accepted_iff_readsSettings.mpr
      ⟨inDocument.isSpelled, readsSettings_override apart spelled reads given⟩⟩

/-- Settings in both spellings. -/
def mixedSettings : Mapping :=
  [(.text "clean_output", .bool true), (.text "isGenerateSelect", .bool false),
    (.text "client", .object [("provider", .text "prisma-client")]), (.text "workers", .int 2)]

/-- Arguments that override settings in either spelling, and one that is not there. -/
def overridingArguments : CommandLine.Arguments :=
  { CommandLine.Arguments.none with
    output := .value "out"
    emitsSelect := true
    workers := .value 3 }

/-- The client and what is cleaned remain as they are. -/
theorem settings_mergeSettings_mixedSettings :
    ∃ merged,
      mergeSettings (.mapping mixedSettings) (.mapping overridingArguments.settingsOverrides) =
          .ok merged ∧
        Decode.settings (.mapping merged) =
          .accepted ⟨"out", true, false, ⟨"prisma-client", none, none, none, none⟩, 3, true,
            false⟩ := by
  have apart : KeysApart mixedSettings := by
    unfold KeysApart
    decide
  have accepted :
      Decode.settings (.mapping mixedSettings) =
        .accepted ⟨"./generated", false, false, ⟨"prisma-client", none, none, none, none⟩, 2, true,
          false⟩ := by
    decide +kernel
  have given :
      overridingArguments.settingsPatch.IsGivenBy overridingArguments.settingsOverrides := by
    rw [CommandLine.settingsOverrides_eq_entries (by decide) (by decide)]
    exact SettingsPatch.isGivenBy_entries (by decide)
  exact settings_mergeSettings apart accepted given

end Source

end ZodSchemas
