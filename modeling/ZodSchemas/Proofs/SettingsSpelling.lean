import ZodSchemas.Proofs.DistinctKeys
import ZodSchemas.Proofs.InputReading
import ZodSchemas.Source.Override

namespace ZodSchemas

/-!
# Spellings of settings

A closed record accepts a field under either spelling, but no key next to the
ones that its fields are found under.  Overrides bring all keys of the settings
section to document spelling first.  Where every key is one that a field is found
under, this changes nothing that is read; any other key is refused unless it is
brought to a name that is known.
-/

open Data

namespace Decode

open Decoded

/-- Among entries a field takes its document spelling, or its plain one where that is absent. -/
def FieldName.Takes (name : FieldName) (entries : Mapping) (spelling : String) : Prop :=
  spelling = name.document ∨ spelling = name.plain ∧ entries.get? name.document = none

/-- Every key is one that a field takes. -/
def IsSpelled (names : List FieldName) (entries : Mapping) : Prop :=
  ∀ entry ∈ entries, ∃ name ∈ names, ∃ spelling,
    name.Takes entries spelling ∧ entry.1 = .text spelling

theorem get?_eq_none_iff
    {entries : Mapping}
    {name : String} :
    entries.get? name = none ↔ ∀ entry ∈ entries, entry.1 ≠ .text name := by
  simp [Mapping.get?, Mapping.find?]

/-- Where the keys are distinct, the entry of a key is the one that is found. -/
theorem get?_eq_some_iff_mem
    {entries : Mapping}
    (apart : KeysApart entries)
    {name : String}
    {value : Value} :
    entries.get? name = some value ↔ (.text name, value) ∈ entries := by
  induction entries with
  | nil =>
      simp [Mapping.get?, Mapping.find?]
  | cons entry rest inductionHypothesis =>
      obtain ⟨key, first⟩ := entry
      obtain ⟨later, restApart⟩ := List.pairwise_cons.mp apart
      have atRest := inductionHypothesis restApart
      rw [get?_cons, List.mem_cons]
      by_cases isKey : key = .text name
      · have noOther : (.text name, value) ∉ rest := by
          intro member
          have differs := later _ (List.mem_map_of_mem member)
          simp [isKey] at differs
        simp [isKey, noOther, eq_comm]
      · simp [isKey, Ne.symm isKey, atRest]

theorem exists_get?_of_mem
    {entries : Mapping}
    {entry : Scalar × Value}
    (member : entry ∈ entries)
    {name : String}
    (isKey : entry.1 = .text name) :
    ∃ value, entries.get? name = some value := by
  rw [← Option.ne_none_iff_exists']
  exact fun absent => get?_eq_none_iff.mp absent entry member isKey

/-- A field is found under a spelling that it takes. -/
theorem find?_eq_some_iff
    {name : FieldName}
    {entries : Mapping}
    {spelling : String}
    {value : Value} :
    name.find? entries = some (spelling, value) ↔
      entries.get? spelling = some value ∧ name.Takes entries spelling := by
  unfold FieldName.find? FieldName.Takes
  cases inDocument : entries.get? name.document with
  | some found =>
      constructor
      · rintro ⟨⟩
        exact ⟨inDocument, .inl rfl⟩
      · rintro ⟨isValue, rfl | ⟨-, absent⟩⟩
        · rw [inDocument] at isValue
          cases isValue
          rfl
        · contradiction
  | none =>
      rw [Option.map_eq_some_iff]
      constructor
      · rintro ⟨_, isValue, ⟨⟩⟩
        exact ⟨isValue, .inr ⟨rfl, rfl⟩⟩
      · rintro ⟨isValue, rfl | ⟨rfl, -⟩⟩
        · rw [inDocument] at isValue
          contradiction
        · exact ⟨value, isValue, rfl⟩

/-- Of two keys that are there a field takes only one. -/
theorem FieldName.Takes.unique
    {name : FieldName}
    {entries : Mapping}
    {first second : String}
    (takesFirst : name.Takes entries first)
    (takesSecond : name.Takes entries second)
    {value other : Value}
    (isFirst : entries.get? first = some value)
    (isSecond : entries.get? second = some other) :
    first = second := by
  have atFirst := find?_eq_some_iff.mpr ⟨isFirst, takesFirst⟩
  have atSecond := find?_eq_some_iff.mpr ⟨isSecond, takesSecond⟩
  exact congrArg Prod.fst (Option.some.inj (atFirst.symm.trans atSecond))

theorem map_find?_eq_some_iff
    {entries : Mapping}
    (apart : KeysApart entries)
    {name : FieldName}
    {value : Value} :
    (name.find? entries).map (·.2) = some value ↔
      ∃ spelling, (.text spelling, value) ∈ entries ∧ name.Takes entries spelling := by
  rw [Option.map_eq_some_iff]
  constructor
  · rintro ⟨⟨spelling, _⟩, found, rfl⟩
    obtain ⟨isValue, takes⟩ := find?_eq_some_iff.mp found
    exact ⟨spelling, (get?_eq_some_iff_mem apart).mp isValue, takes⟩
  · rintro ⟨spelling, member, takes⟩
    have isValue := (get?_eq_some_iff_mem apart).mpr member
    exact ⟨(spelling, value), find?_eq_some_iff.mpr ⟨isValue, takes⟩, rfl⟩

theorem unknownIssue?_eq_none_iff
    {used : List String}
    {key : Scalar} :
    unknownIssue? used key = none ↔ ∃ spelling ∈ used, key = .text spelling := by
  cases key <;> simp [unknownIssue?]

/-- The keys that are not refused are those that fields take. -/
theorem known_eq_accepted_iff
    {names : List FieldName}
    {entries : Mapping} :
    known names entries = .accepted () ↔ IsSpelled names entries := by
  have noIssues :
      known names entries = .accepted () ↔
        entries.filterMap (fun entry =>
          unknownIssue? (names.filterMap fun name => (name.find? entries).map (·.1)) entry.1) =
          [] := by
    unfold known
    dsimp only
    split
    · rename_i none
      exact iff_of_true rfl none
    · rename_i some
      exact iff_of_false nofun some
  rw [noIssues, List.filterMap_eq_nil_iff]
  refine forall₂_congr fun entry member => ?_
  rw [unknownIssue?_eq_none_iff]
  constructor
  · rintro ⟨spelling, isUsed, isKey⟩
    obtain ⟨name, isName, isSpelling⟩ := List.mem_filterMap.mp isUsed
    obtain ⟨⟨_, value⟩, found, rfl⟩ := Option.map_eq_some_iff.mp isSpelling
    exact ⟨name, isName, _, (find?_eq_some_iff.mp found).2, isKey⟩
  · rintro ⟨name, isName, spelling, takes, isKey⟩
    obtain ⟨value, isValue⟩ := exists_get?_of_mem member isKey
    have isSpelling : (name.find? entries).map (·.1) = some spelling := by
      rw [find?_eq_some_iff.mpr ⟨isValue, takes⟩, Option.map_some]
    exact ⟨spelling, List.mem_filterMap.mpr ⟨name, isName, isSpelling⟩, isKey⟩

theorem closedRecord_eq_accepted_iff
    {record : String}
    {names : List FieldName}
    {decode : Mapping → Decoded α}
    {entries : Mapping}
    {result : α} :
    closedRecord record names decode (.mapping entries) = .accepted result ↔
      (∀ entry ∈ entries, isNameable entry.1 = true) ∧ decode entries = .accepted result ∧
        IsSpelled names entries := by
  change
    (if entries.all (fun entry => isNameable entry.1) then
        (fun record (_ : Unit) => record) <$> decode entries <*> known names entries
      else .refuse .notUnicode) = _ ↔ _
  rw [← List.all_eq_true]
  split
  · rename_i nameable
    simp only [seq_eq_accepted_iff, map_eq_accepted_iff]
    constructor
    · rintro ⟨_, _, ⟨original, isOriginal, rfl⟩, isKnown, rfl⟩
      exact ⟨nameable, isOriginal, known_eq_accepted_iff.mp isKnown⟩
    · rintro ⟨-, isOriginal, spelled⟩
      exact ⟨_, (), ⟨result, isOriginal, rfl⟩, known_eq_accepted_iff.mpr spelled, rfl⟩
  · rename_i unnameable
    exact ⟨nofun, fun ⟨nameable, _⟩ => absurd nameable unnameable⟩

/-- Fields are read by their values, not by their spellings. -/
theorem optional_eq_accepted_congr
    {name : FieldName}
    {first second : Mapping}
    (sameValue : (name.find? first).map (·.2) = (name.find? second).map (·.2))
    {absent : α}
    {decode : Value → Decoded α}
    {value : α} :
    optional name absent decode first = .accepted value ↔
      optional name absent decode second = .accepted value := by
  unfold optional
  cases inFirst : name.find? first <;> cases inSecond : name.find? second <;>
    simp_all [below_eq_accepted_iff]

end Decode

namespace Source

open Decode
open Decode.Decoded

/-- An entry with its key in document spelling, or as it is where the key is no text. -/
def respelled (entry : Scalar × Value) : Scalar × Value :=
  ((documentKey entry.1).toOption.getD entry.1, entry.2)

theorem documentEntries_mapping
    {entries : Mapping}
    (texts : ∀ entry ∈ entries, ∃ key, documentKey entry.1 = .ok key) :
    documentEntries (.mapping entries) = .ok (Mapping.ofEntries (entries.map respelled)) := by
  have renamed :
      entries.mapM (fun entry => (documentKey entry.1).map (·, entry.2)) =
        .ok (entries.map respelled) := by
    rw [mapM_eq_ok_iff, List.forall₂_map_right_iff, List.forall₂_same]
    intro entry member
    obtain ⟨key, isKey⟩ := texts entry member
    rw [respelled, isKey]
    rfl
  cases entries with
  | nil =>
      rfl
  | cons entry rest =>
      change (List.mapM _ _ >>= fun renamed => Except.ok (Mapping.ofEntries renamed)) = _
      rw [renamed]
      rfl

/-- A setting has the same key in document spelling whichever spelling it has. -/
theorem documentKey_of_mem :
    ∀ name ∈ settingsNames,
      (documentKey (.text name.document)).toOption = some (.text name.document) ∧
        (documentKey (.text name.plain)).toOption = some (.text name.document) := by
  decide +kernel

theorem eq_of_document :
    ∀ name ∈ settingsNames, ∀ other ∈ settingsNames,
      name.document = other.document ∨ name.plain = other.document → name = other := by
  decide

theorem isNameable_of_mem :
    ∀ name ∈ settingsNames,
      isNameable (.text name.document) = true ∧ isNameable (.text name.plain) = true := by
  decide

section Respelled

variable {entries : Mapping}

theorem documentKey_of_takes
    {name : FieldName}
    (isName : name ∈ settingsNames)
    {spelling : String}
    (takes : name.Takes entries spelling) :
    documentKey (.text spelling) = .ok (.text name.document) := by
  rcases takes with rfl | ⟨rfl, -⟩
  · exact eq_ok_of_toOption (documentKey_of_mem name isName).1
  · exact eq_ok_of_toOption (documentKey_of_mem name isName).2

theorem respelled_of_takes
    {name : FieldName}
    (isName : name ∈ settingsNames)
    {spelling : String}
    (takes : name.Takes entries spelling)
    (value : Value) :
    respelled (.text spelling, value) = (.text name.document, value) := by
  rw [respelled, documentKey_of_takes isName takes]
  rfl

variable (spelled : IsSpelled settingsNames entries)

include spelled

theorem exists_respelled
    {entry : Scalar × Value}
    (member : entry ∈ entries) :
    ∃ name ∈ settingsNames, ∃ spelling,
      name.Takes entries spelling ∧ entry.1 = .text spelling ∧
        respelled entry = (.text name.document, entry.2) := by
  obtain ⟨_, value⟩ := entry
  obtain ⟨name, isName, spelling, takes, rfl⟩ := spelled _ member
  exact ⟨name, isName, spelling, takes, rfl, respelled_of_takes isName takes value⟩

/-- Only one spelling of a setting counts, so no two keys become the same. -/
theorem keysApart_respelled
    (apart : KeysApart entries) :
    KeysApart (entries.map respelled) := by
  rw [KeysApart, List.map_map, List.pairwise_map]
  refine (List.pairwise_map.mp apart).imp_of_mem fun {first second} isFirst isSecond differ => ?_
  obtain ⟨name, isName, spelling, takes, isKey, atFirst⟩ := exists_respelled spelled isFirst
  obtain ⟨other, isOther, _, takesOther, isOtherKey, atSecond⟩ := exists_respelled spelled isSecond
  rw [Function.comp_apply, Function.comp_apply, atFirst, atSecond, same_text,
    decide_eq_false_iff_not]
  intro same
  obtain rfl := eq_of_document name isName other isOther (.inl (Scalar.text.inj same))
  obtain ⟨_, isValue⟩ := exists_get?_of_mem isFirst isKey
  obtain ⟨_, isOtherValue⟩ := exists_get?_of_mem isSecond isOtherKey
  obtain rfl := takes.unique takesOther isValue isOtherValue
  simp [isKey, isOtherKey] at differ

theorem documentEntries_of_spelled
    (apart : KeysApart entries) :
    documentEntries (.mapping entries) = .ok (entries.map respelled) := by
  rw [documentEntries_mapping, Mapping.ofEntries_eq_self (keysApart_respelled spelled apart)]
  intro entry member
  obtain ⟨name, isName, spelling, takes, isKey⟩ := spelled entry member
  exact ⟨_, isKey ▸ documentKey_of_takes isName takes⟩

theorem isSpelled_respelled :
    IsSpelled settingsNames (entries.map respelled) := by
  refine List.forall_mem_map.mpr fun entry member => ?_
  obtain ⟨name, isName, _, -, -, atEntry⟩ := exists_respelled spelled member
  exact ⟨name, isName, name.document, .inl rfl, congrArg Prod.fst atEntry⟩

theorem nameable_of_spelled :
    ∀ entry ∈ entries, isNameable entry.1 = true := by
  intro entry member
  obtain ⟨name, isName, spelling, takes, isKey⟩ := spelled entry member
  rw [isKey]
  rcases takes with rfl | ⟨rfl, -⟩
  · exact (isNameable_of_mem name isName).1
  · exact (isNameable_of_mem name isName).2

/-- A setting that is respelled has the value that it had. -/
theorem find?_respelled
    (apart : KeysApart entries)
    {name : FieldName}
    (isName : name ∈ settingsNames) :
    (name.find? (entries.map respelled)).map (·.2) = (name.find? entries).map (·.2) := by
  refine Option.ext fun value => ?_
  rw [map_find?_eq_some_iff (keysApart_respelled spelled apart), map_find?_eq_some_iff apart]
  constructor
  · rintro ⟨spelling, member, takes⟩
    obtain ⟨⟨_, _⟩, isEntry, same⟩ := List.mem_map.mp member
    obtain ⟨other, isOther, original, takesOriginal, rfl, atEntry⟩ :=
      exists_respelled spelled isEntry
    rw [atEntry] at same
    cases same
    have isSetting := takes.imp Eq.symm fun plain => plain.1.symm
    obtain rfl := eq_of_document name isName other isOther isSetting
    exact ⟨original, isEntry, takesOriginal⟩
  · rintro ⟨spelling, member, takes⟩
    have atEntry := respelled_of_takes isName takes value
    exact ⟨name.document, atEntry ▸ List.mem_map_of_mem member, .inl rfl⟩

/-- Settings are read alike in both spellings. -/
theorem settings_respelled
    (apart : KeysApart entries)
    {result : Settings} :
    Decode.settings (.mapping (entries.map respelled)) = .accepted result ↔
      Decode.settings (.mapping entries) = .accepted result := by
  have sameValue (name : FieldName) (isName : name ∈ settingsNames) :=
    find?_respelled spelled apart isName
  have alsoSpelled := isSpelled_respelled spelled
  have nameable := nameable_of_spelled spelled
  have alsoNameable := nameable_of_spelled alsoSpelled
  unfold Decode.settings
  rw [closedRecord_eq_accepted_iff, closedRecord_eq_accepted_iff]
  refine and_congr (iff_of_true alsoNameable nameable)
    (and_congr ?_ (iff_of_true alsoSpelled spelled))
  simp only [seq_eq_accepted_iff, map_eq_accepted_iff,
    optional_eq_accepted_congr (sameValue (.single "output") (by decide)),
    optional_eq_accepted_congr (sameValue ⟨"isGenerateSelect", "is_generate_select"⟩ (by decide)),
    optional_eq_accepted_congr (sameValue ⟨"isGenerateInclude", "is_generate_include"⟩ (by decide)),
    optional_eq_accepted_congr (sameValue (.single "client") (by decide)),
    optional_eq_accepted_congr (sameValue (.single "workers") (by decide)),
    optional_eq_accepted_congr (sameValue ⟨"cleanOutput", "clean_output"⟩ (by decide)),
    optional_eq_accepted_congr (sameValue ⟨"writeManifest", "write_manifest"⟩ (by decide))]

end Respelled

/-- The settings section is nothing, or an object whose entries are those of its fields. -/
def IsSpelledSection (config : Value) : Prop :=
  config = .null ∨ ∃ entries, config = .mapping entries ∧ IsSpelled settingsNames entries

/-- The value under the key of the settings section. -/
def configValue (raw : Mapping) : Value :=
  (raw.get? "config").getD .null

theorem settingsSection_of_null
    {raw : Mapping}
    (isNull : configValue raw = .null) :
    settingsSection raw = .mapping [] := by
  unfold configValue at isNull
  unfold settingsSection
  cases found : raw.get? "config" with
  | none =>
      rfl
  | some value =>
      rw [found] at isNull
      obtain rfl : value = .null := isNull
      rfl

theorem settingsSection_of_mapping
    {raw entries : Mapping}
    (isMapping : configValue raw = .mapping entries) :
    settingsSection raw = .mapping entries := by
  unfold configValue at isMapping
  unfold settingsSection
  cases found : raw.get? "config" with
  | none =>
      rw [found] at isMapping
      contradiction
  | some value =>
      rw [found] at isMapping
      obtain rfl : value = .mapping entries := isMapping
      rfl

theorem isSpelledSection_of_accepted
    {raw : Mapping}
    {result : Settings}
    (accepted : Decode.settings (settingsSection raw) = .accepted result) :
    IsSpelledSection (configValue raw) := by
  unfold settingsSection at accepted
  unfold configValue
  split at accepted
  · rename_i absent
    exact .inl (by rw [absent]; rfl)
  · rename_i isNull
    exact .inl (by rw [isNull]; rfl)
  · rename_i value _ found
    obtain ⟨entries, rfl, -⟩ := record_eq_accepted accepted
    have spelled := (closedRecord_eq_accepted_iff.mp accepted).2.2
    exact .inr ⟨entries, by rw [found]; rfl, spelled⟩

theorem settingsSection_put
    (raw entries : Mapping) :
    settingsSection (raw.put "config" (.mapping entries)) = .mapping entries := by
  apply settingsSection_of_mapping
  rw [configValue, get?_put, if_pos rfl, Option.getD_some]

theorem overrideSettings_nil
    {raw entries : Mapping}
    (areEntries : documentEntries (configValue raw) = .ok entries) :
    overrideSettings [] raw = .ok (raw.put "config" (.mapping entries)) := by
  unfold configValue at areEntries
  rw [overrideSettings, mergeSettings, areEntries]
  rfl

/-- Bringing the entries of fields to document spelling changes nothing that is read. -/
theorem exists_adapted_of_spelled
    {raw : Mapping}
    (apart : (configValue raw).HasKeysApart)
    (spelled : IsSpelledSection (configValue raw)) :
    ∃ adapted, overrideSettings [] raw = .ok adapted ∧
      ∀ result,
        Decode.settings (settingsSection adapted) = .accepted result ↔
          Decode.settings (settingsSection raw) = .accepted result := by
  rcases spelled with isNull | ⟨entries, isMapping, spelled⟩
  · have areEntries : documentEntries (configValue raw) = .ok [] := by
      rw [isNull]
      rfl
    refine ⟨_, overrideSettings_nil areEntries, fun result => ?_⟩
    rw [settingsSection_put, settingsSection_of_null isNull]
  · rw [isMapping] at apart
    cases apart with
    | mapping keysApart =>
        have areEntries : documentEntries (configValue raw) = .ok (entries.map respelled) := by
          rw [isMapping, documentEntries_of_spelled spelled keysApart]
        refine ⟨_, overrideSettings_nil areEntries, fun result => ?_⟩
        rw [settingsSection_put, settingsSection_of_mapping isMapping]
        exact settings_respelled spelled keysApart

/-- What is accepted is accepted alike once it is brought to document spelling; what is refused is
accepted then only where some entry is not that of a field. -/
theorem settings_eq_accepted_iff
    {raw : Mapping}
    (apart : (configValue raw).HasKeysApart)
    {result : Settings} :
    Decode.settings (settingsSection raw) = .accepted result ↔
      IsSpelledSection (configValue raw) ∧
        ∃ adapted, overrideSettings [] raw = .ok adapted ∧
          Decode.settings (settingsSection adapted) = .accepted result := by
  constructor
  · intro accepted
    have spelled := isSpelledSection_of_accepted accepted
    obtain ⟨adapted, isAdapted, alike⟩ := exists_adapted_of_spelled apart spelled
    exact ⟨spelled, adapted, isAdapted, (alike result).mpr accepted⟩
  · rintro ⟨spelled, adapted, isAdapted, accepted⟩
    obtain ⟨other, isOther, alike⟩ := exists_adapted_of_spelled apart spelled
    obtain rfl := Except.ok.inj (isAdapted.symm.trans isOther)
    exact (alike result).mp accepted

end Source

end ZodSchemas
