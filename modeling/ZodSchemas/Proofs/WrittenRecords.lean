import Mathlib.Data.List.DropRight
import ZodSchemas.Decode.Settings
import ZodSchemas.Encode.Metadata
import ZodSchemas.Encode.Settings
import ZodSchemas.Proofs.Decoding
import ZodSchemas.Proofs.Tables

namespace ZodSchemas.Decode

/-!
# Records that are read back

Every record of the metadata and of the settings is written with all its fields,
each under its document spelling.  What has been read is read back from that:
names stay filled, labels stay labels, points at the front of an import extension
are gone for good, and lists without repetitions are left alone.
-/

open ZodSchemas.Data
open ZodSchemas.Metadata
open Decoded

theorem rereads_alternative :
    Rereads alternative Encode.alternative := by
  constructor
  intro value result accepted
  obtain ⟨entries, -, fields⟩ := record_eq_accepted accepted
  simp only [seq_eq_accepted_iff, map_eq_accepted_iff] at fields
  obtain ⟨_, origin, ⟨_, location, ⟨_, listed, ⟨typeName, inType, rfl⟩, inListed, rfl⟩,
    inLocation, rfl⟩, inOrigin, rfl⟩ := fields
  refine seq_of_accepted (seq_of_accepted (seq_of_accepted (map_of_accepted ?_ _) ?_) ?_) ?_
  · exact rereads_filledText.required inType rfl
  · exact rereads_boolean.optional rfl inListed rfl
  · exact (rereads_member _ _).optional rfl inLocation rfl
  · exact rereads_optionalText.optional rfl inOrigin rfl

theorem rereads_inputField :
    Rereads inputField Encode.inputField := by
  constructor
  intro value result accepted
  obtain ⟨entries, -, fields⟩ := record_eq_accepted accepted
  simp only [seq_eq_accepted_iff, map_eq_accepted_iff] at fields
  obtain ⟨_, alternatives, ⟨_, nullable, ⟨_, required, ⟨name, inName, rfl⟩, inRequired, rfl⟩,
    inNullable, rfl⟩, inAlternatives, rfl⟩ := fields
  refine seq_of_accepted (seq_of_accepted (seq_of_accepted (map_of_accepted ?_ _) ?_) ?_) ?_
  · exact rereads_filledText.required inName rfl
  · exact rereads_boolean.optional rfl inRequired rfl
  · exact rereads_boolean.optional rfl inNullable rfl
  · exact rereads_alternative.list.optional rfl inAlternatives rfl

theorem rereads_composite :
    Rereads composite Encode.composite := by
  constructor
  intro value result accepted
  obtain ⟨entries, -, fields⟩ := record_eq_accepted accepted
  simp only [seq_eq_accepted_iff, map_eq_accepted_iff] at fields
  obtain ⟨_, inputFields, ⟨name, inName, rfl⟩, inFields, rfl⟩ := fields
  refine seq_of_accepted (map_of_accepted ?_ _) ?_
  · exact rereads_filledText.required inName rfl
  · exact rereads_inputField.list.optional rfl inFields rfl

theorem rereads_modelField :
    Rereads modelField Encode.modelField := by
  constructor
  intro value result accepted
  obtain ⟨entries, -, fields⟩ := record_eq_accepted accepted
  simp only [seq_eq_accepted_iff, map_eq_accepted_iff] at fields
  obtain ⟨_, required, ⟨_, listed, ⟨_, typeName, ⟨_, kind, ⟨name, inName, rfl⟩, inKind, rfl⟩,
    inType, rfl⟩, inListed, rfl⟩, inRequired, rfl⟩ := fields
  refine seq_of_accepted
    (seq_of_accepted (seq_of_accepted (seq_of_accepted (map_of_accepted ?_ _) ?_) ?_) ?_) ?_
  · exact rereads_filledText.required inName rfl
  · exact (rereads_member _ _).optional rfl inKind rfl
  · exact rereads_filledText.required inType rfl
  · exact rereads_boolean.optional rfl inListed rfl
  · exact rereads_boolean.optional rfl inRequired rfl

theorem rereads_model :
    Rereads model Encode.model := by
  constructor
  intro value result accepted
  obtain ⟨entries, -, fields⟩ := record_eq_accepted accepted
  simp only [seq_eq_accepted_iff, map_eq_accepted_iff] at fields
  obtain ⟨_, modelFields, ⟨name, inName, rfl⟩, inFields, rfl⟩ := fields
  refine seq_of_accepted (map_of_accepted ?_ _) ?_
  · exact rereads_filledText.required inName rfl
  · exact rereads_modelField.list.optional rfl inFields rfl

/-- Texts have no names to be replaced by. -/
theorem flattenValues_texts
    (values : List String) :
    flattenValues (.texts values) = .accepted (.texts values) := by
  have kept : (values.map Value.text).mapM flattenValue? = some (values.map Value.text) := by
    induction values with
    | nil =>
        rfl
    | cons first rest inductionHypothesis =>
        rw [List.map_cons, List.mapM_cons, inductionHypothesis]
        rfl
  rw [Value.texts, flattenValues, kept]

/-- The values of an enumeration that have been read are some, each once. -/
theorem rereads_enumValues :
    Rereads enumValues .texts := by
  constructor
  intro value values accepted
  simp only [enumValues, check_eq_accepted_iff, andThen_eq_accepted_iff] at accepted ⊢
  obtain ⟨⟨⟨flattened, -, isList⟩, filled⟩, apart⟩ := accepted
  exact ⟨⟨⟨_, flattenValues_texts values, rereads_text.list.again isList⟩, filled⟩, apart⟩

theorem rereads_enumType :
    Rereads enumType Encode.enumType := by
  constructor
  intro value result accepted
  obtain ⟨entries, -, fields⟩ := record_eq_accepted accepted
  simp only [seq_eq_accepted_iff, map_eq_accepted_iff] at fields
  obtain ⟨_, values, ⟨name, inName, rfl⟩, inValues, rfl⟩ := fields
  refine seq_of_accepted (map_of_accepted ?_ _) ?_
  · exact rereads_filledText.required inName rfl
  · exact rereads_enumValues.required inValues rfl

theorem rereads_operations :
    Rereads
      (fun value => (list (member Operation.all Operation.label) value).map distinct)
      fun operations => .texts (operations.map Operation.label) := by
  constructor
  intro value operations accepted
  obtain ⟨listed, isListed, rfl⟩ := map_eq_accepted_iff.mp accepted
  have each := (rereads_member Operation.all Operation.label).of_mem_list isListed
  have again :
      list (member Operation.all Operation.label)
          (.texts ((distinct listed).map Operation.label)) =
        .accepted (distinct listed) := by
    rw [Value.texts, List.map_map]
    exact list_map_eq_accepted fun operation member => each operation (mem_distinct.mp member)
  exact map_eq_accepted_iff.mpr ⟨_, again, distinct_eq_self (nodup_distinct listed)⟩

theorem rereads_operationMapping :
    Rereads operationMapping Encode.operationMapping := by
  constructor
  intro value result accepted
  obtain ⟨entries, -, fields⟩ := record_eq_accepted accepted
  simp only [seq_eq_accepted_iff, map_eq_accepted_iff] at fields
  obtain ⟨_, rawOperations, ⟨_, operations, ⟨model, inModel, rfl⟩, inOperations, rfl⟩,
    inRaw, rfl⟩ := fields
  refine seq_of_accepted (seq_of_accepted (map_of_accepted ?_ _) ?_) ?_
  · exact rereads_filledText.required inModel rfl
  · exact rereads_operations.optional rfl inOperations rfl
  · exact rereads_text.list.optional rfl inRaw rfl

theorem rereads_aggregateSupport :
    Rereads aggregateSupport Encode.aggregateSupport := by
  constructor
  intro value result accepted
  obtain ⟨entries, -, fields⟩ := record_eq_accepted accepted
  simp only [seq_eq_accepted_iff, map_eq_accepted_iff] at fields
  obtain ⟨_, sum, ⟨_, avg, ⟨_, max, ⟨_, min, ⟨count, inCount, rfl⟩, inMin, rfl⟩, inMax, rfl⟩,
    inAvg, rfl⟩, inSum, rfl⟩ := fields
  refine seq_of_accepted
    (seq_of_accepted (seq_of_accepted (seq_of_accepted (map_of_accepted ?_ _) ?_) ?_) ?_) ?_
  · exact rereads_boolean.optional rfl inCount rfl
  · exact rereads_boolean.optional rfl inMin rfl
  · exact rereads_boolean.optional rfl inMax rfl
  · exact rereads_boolean.optional rfl inAvg rfl
  · exact rereads_boolean.optional rfl inSum rfl

theorem dropLeadingPoints_idempotent
    (text : String) :
    dropLeadingPoints (dropLeadingPoints text) = dropLeadingPoints text := by
  rw [dropLeadingPoints, dropLeadingPoints, String.toList_ofList, List.dropWhile_idempotent]

theorem rereads_importExtension :
    Rereads importExtension .textOrNull := by
  constructor
  intro value result accepted
  obtain ⟨original, -, rfl⟩ := map_eq_accepted_iff.mp accepted
  cases original with
  | none =>
      rfl
  | some extension =>
      change Decoded.accepted (some (dropLeadingPoints (dropLeadingPoints extension))) = _
      rw [dropLeadingPoints_idempotent]
      rfl

/-- A record that is written with the fields that are known has no unknown key. -/
theorem known_named
    {names : List FieldName}
    {written : List (String × Value)}
    (complete : written.map Prod.fst = names.map FieldName.document) :
    known names (named written) = .accepted () := by
  have isUsed (name : FieldName) (isName : name ∈ names) :
      (name.find? (named written)).map (·.1) = some name.document := by
    have isKey : name.document ∈ written.map Prod.fst := by
      rw [complete]
      exact List.mem_map_of_mem isName
    cases found : written.lookup name.document with
    | none =>
        obtain ⟨entry, member, isEntry⟩ := List.mem_map.mp isKey
        have differs := List.lookup_eq_none_iff.mp found entry member
        simp [isEntry] at differs
    | some value =>
        unfold FieldName.find?
        rw [get?_named, found]
        rfl
  have used :
      names.filterMap (fun name => (name.find? (named written)).map (·.1)) =
        names.map FieldName.document := by
    rw [List.filterMap_congr isUsed]
    exact congrFun List.filterMap_eq_map names
  have noIssue :
      (named written).filterMap
          (fun entry => unknownIssue? (names.map FieldName.document) entry.1) = [] := by
    rw [List.filterMap_eq_nil_iff]
    intro entry member
    obtain ⟨field, isField, rfl⟩ := List.mem_map.mp member
    have listed : (names.map FieldName.document).contains field.1 = true := by
      rw [List.contains_iff_mem, ← complete]
      exact List.mem_map_of_mem isField
    exact if_pos listed
  unfold known
  dsimp only
  rw [used, noIssue]

theorem closedRecord_named
    {name : String}
    {names : List FieldName}
    {decode : Mapping → Decoded α}
    {written : List (String × Value)}
    {result : α}
    (complete : written.map Prod.fst = names.map FieldName.document)
    (whole : ∀ name ∈ names, Text.isWhole name.document = true)
    (accepted : decode (named written) = .accepted result) :
    closedRecord name names decode (.object written) = .accepted result := by
  have nameable : (named written).all (fun entry => isNameable entry.1) = true := by
    rw [List.all_eq_true]
    intro entry member
    obtain ⟨field, isField, rfl⟩ := List.mem_map.mp member
    have isKey : field.1 ∈ names.map FieldName.document := by
      rw [← complete]
      exact List.mem_map_of_mem isField
    obtain ⟨known, isKnown, same⟩ := List.mem_map.mp isKey
    change Text.isWhole field.1 = true
    rw [← same]
    exact whole known isKnown
  change
    (if (named written).all (fun entry => isNameable entry.1) then
        (fun record (_ : Unit) => record) <$> decode (named written) <*> known names (named written)
      else .refuse .notUnicode) = _
  rw [if_pos nameable]
  exact seq_of_accepted (map_of_accepted accepted _) (known_named complete)

theorem closedRecord_eq_accepted
    {name : String}
    {names : List FieldName}
    {decode : Mapping → Decoded α}
    {value : Value}
    {result : α}
    (accepted : closedRecord name names decode value = .accepted result) :
    ∃ entries, decode entries = .accepted result := by
  obtain ⟨entries, -, inRecord⟩ := record_eq_accepted accepted
  split at inRecord
  · simp only [seq_eq_accepted_iff, map_eq_accepted_iff] at inRecord
    obtain ⟨_, _, ⟨original, isOriginal, rfl⟩, -, rfl⟩ := inRecord
    exact ⟨entries, isOriginal⟩
  · contradiction

theorem rereads_client :
    Rereads client Encode.client := by
  constructor
  intro value result accepted
  obtain ⟨entries, fields⟩ := closedRecord_eq_accepted accepted
  simp only [seq_eq_accepted_iff, map_eq_accepted_iff] at fields
  obtain ⟨_, extension, ⟨_, runtime, ⟨_, format, ⟨_, output, ⟨provider, inProvider, rfl⟩,
    inOutput, rfl⟩, inFormat, rfl⟩, inRuntime, rfl⟩, inExtension, rfl⟩ := fields
  refine closedRecord_named rfl (by decide) (seq_of_accepted
    (seq_of_accepted (seq_of_accepted (seq_of_accepted (map_of_accepted ?_ _) ?_) ?_) ?_) ?_)
  · exact rereads_text.optional rfl inProvider rfl
  · exact rereads_optionalText.optional rfl inOutput rfl
  · exact rereads_optionalText.optional rfl inFormat rfl
  · exact rereads_optionalText.optional rfl inRuntime rfl
  · exact rereads_importExtension.optional rfl inExtension rfl

theorem rereads_settings :
    Rereads settings Encode.settings := by
  constructor
  intro value result accepted
  obtain ⟨entries, fields⟩ := closedRecord_eq_accepted accepted
  simp only [seq_eq_accepted_iff, map_eq_accepted_iff] at fields
  obtain ⟨_, manifest, ⟨_, clean, ⟨_, number, ⟨_, client, ⟨_, inclusion, ⟨_, selection,
    ⟨output, inOutput, rfl⟩, inSelection, rfl⟩, inInclusion, rfl⟩, inClient, rfl⟩, inWorkers, rfl⟩,
    inClean, rfl⟩, inManifest, rfl⟩ := fields
  refine closedRecord_named rfl (by decide) (seq_of_accepted (seq_of_accepted (seq_of_accepted
    (seq_of_accepted (seq_of_accepted (seq_of_accepted (map_of_accepted ?_ _) ?_) ?_) ?_) ?_)
    ?_) ?_)
  · exact rereads_text.optional rfl inOutput rfl
  · exact rereads_boolean.optional rfl inSelection rfl
  · exact rereads_boolean.optional rfl inInclusion rfl
  · exact rereads_client.optional rfl inClient rfl
  · exact (rereads_integerWithin 1 64).optional rfl inWorkers rfl
  · exact rereads_boolean.optional rfl inClean rfl
  · exact rereads_boolean.optional rfl inManifest rfl

theorem insertNamed_cons_of_ne
    {name key : String}
    (different : name ≠ key)
    (old value : α)
    (rest : List (String × α)) :
    insertNamed ((name, old) :: rest) key value = (name, old) :: insertNamed rest key value := by
  unfold insertNamed
  by_cases present : rest.any (fun entry => entry.1 == key) = true <;>
    simp [different, present]

/-- Where no key repeats, setting a key sets its only entry. -/
theorem insertNamed_eq_updateEntry
    {entries : List (String × α)}
    (apart : (entries.map Prod.fst).Nodup)
    (key : String)
    (value : α) :
    insertNamed entries key value = updateEntry key value (fun _ => value) entries := by
  induction entries with
  | nil =>
      rfl
  | cons first rest inductionHypothesis =>
      obtain ⟨name, old⟩ := first
      rw [List.map_cons, List.nodup_cons] at apart
      by_cases same : name = key
      · subst same
        have kept :
            rest.map (fun entry => if entry.1 = name then (name, value) else entry) = rest := by
          rw [List.map_congr_left (g := id), List.map_id]
          intro entry member
          have different : entry.1 ≠ name :=
            fun same => apart.1 (List.mem_map.mpr ⟨entry, member, same⟩)
          rw [if_neg different, id]
        simp [insertNamed, updateEntry, kept]
      · rw [insertNamed_cons_of_ne same, updateEntry, if_neg same, inductionHypothesis apart.2]

/-- The pairs that a dictionary is read as, set one after the other. -/
theorem foldl_insertNamed
    (pairs : List (String × α)) :
    pairs.foldl (fun entries entry => insertNamed entries entry.1 entry.2) [] =
      tableOf id pairs := by
  induction pairs using List.reverseRecOn with
  | nil =>
      rfl
  | append_singleton earlier last inductionHypothesis =>
      have apart : ((tableOf id earlier).map Prod.fst).Nodup := by
        rw [map_fst_tableOf]
        exact nodup_distinct _
      rw [List.foldl_append, List.foldl_cons, List.foldl_nil, inductionHypothesis,
        insertNamed_eq_updateEntry apart, tableOf_concat]
      rfl

theorem dictionary_eq_accepted_iff
    {decode : Value → Decoded α}
    {entries : List (Scalar × Value)}
    {table : List (String × α)} :
    dictionary decode (.mapping entries) = .accepted table ↔
      ∃ pairs,
        List.Forall₂
          (fun entry pair =>
            text (.scalar entry.1) = .accepted pair.1 ∧ decode entry.2 = .accepted pair.2)
          entries pairs ∧
          tableOf id pairs = table := by
  change
    ((fun pairs : List (String × α) =>
        pairs.foldl (fun entries entry => insertNamed entries entry.1 entry.2) []) <$>
      Decoded.all (entries.map fun entry =>
        Prod.mk <$> ((text (.scalar entry.1)).below (.key "[key]")).below (keyStep entry.1)
          <*> (decode entry.2).below (keyStep entry.1))) = .accepted table ↔ _
  simp only [map_eq_accepted_iff, all_eq_accepted_iff, List.forall₂_map_left_iff,
    seq_eq_accepted_iff, below_eq_accepted_iff, foldl_insertNamed]
  have atEntry (entry : Scalar × Value) (pair : String × α) :
      (∃ function value,
        (∃ name, text (.scalar entry.1) = .accepted name ∧ Prod.mk name = function) ∧
          decode entry.2 = .accepted value ∧ function value = pair) ↔
        text (.scalar entry.1) = .accepted pair.1 ∧ decode entry.2 = .accepted pair.2 := by
    constructor
    · rintro ⟨_, value, ⟨name, isName, rfl⟩, isValue, rfl⟩
      exact ⟨isName, isValue⟩
    · rintro ⟨isName, isValue⟩
      exact ⟨_, pair.2, ⟨pair.1, isName, rfl⟩, isValue, rfl⟩
  simp only [atEntry]

theorem rereads_dictionary
    {decode : Value → Decoded α}
    {encode : α → Value}
    (rereads : Rereads decode encode) :
    Rereads (dictionary decode) fun table =>
      .object (table.map fun entry => (entry.1, encode entry.2)) := by
  constructor
  intro value table accepted
  cases value with
  | mapping entries =>
      obtain ⟨pairs, each, rfl⟩ := dictionary_eq_accepted_iff.mp accepted
      refine dictionary_eq_accepted_iff.mpr ⟨tableOf id pairs, ?_, ?_⟩
      · rw [List.forall₂_map_left_iff, List.forall₂_map_left_iff, List.forall₂_same]
        intro pair inTable
        obtain ⟨original, isPair, rfl⟩ := exists_of_mem_tableOf inTable
        obtain ⟨_, -, -, isValue⟩ := exists_original_of_mem each isPair
        exact ⟨rfl, rereads.again isValue⟩
      · refine tableOf_id_eq_self ?_
        rw [map_fst_tableOf]
        exact nodup_distinct _
  | scalar | set | pair | list =>
      contradiction

end ZodSchemas.Decode
