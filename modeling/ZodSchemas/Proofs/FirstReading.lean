import ZodSchemas.Proofs.JsonValues
import ZodSchemas.Proofs.WrittenRecords
import ZodSchemas.Source.Document

namespace ZodSchemas.Source

/-!
# What a first reading leaves

Before a JSON document is read, enumerations with a name that has occurred are
left out, and so are raw operations that are listed twice.  Names in JSON are
texts, and a text is read as itself; so the document that is read has no two
enumerations of one name and no mapping that repeats a raw operation.
-/

open Data
open Metadata
open Decode
open Decode.Decoded

/-- Enumerations have names of their own, and mappings list raw operations once. -/
structure IsSettled (document : Document) : Prop where
  enumsApart : document.enumNames.Nodup
  rawApart : ∀ mapping ∈ document.mappings, mapping.rawOperations.Nodup

section Repetitions

variable {keyOf : Value → Except Fault Value}

/-- The items whose keys are not among the seen ones and do not repeat an earlier one. -/
def keepFirst (keyOf : Value → Except Fault Value) (seen : List Value) :
    List Value → Except Fault (List Value)
  | [] => .ok []
  | item :: rest => do
      let key ← keyOf item
      if !key.isFixed then .error .notFixed
      else if seen.any key.same then keepFirst keyOf seen rest
      else do
        let others ← keepFirst keyOf (key :: seen) rest
        .ok (item :: others)

def nameOf (item : Value) : Except Fault Value := do
  let fields ← entries item
  .ok ((fields.get? "name").getD .null)

theorem firstByName_eq_keepFirst
    (seen items : List Value) :
    firstByName seen items = keepFirst nameOf seen items := by
  induction items generalizing seen with
  | nil =>
      rfl
  | cons item rest inductionHypothesis =>
      simp only [firstByName, keepFirst, nameOf, inductionHypothesis, bind_assoc]
      rfl

theorem withoutRepetitions_eq_keepFirst
    (seen items : List Value) :
    withoutRepetitions seen items = keepFirst .ok seen items := by
  induction items generalizing seen with
  | nil =>
      rfl
  | cons item rest inductionHypothesis =>
      simp only [withoutRepetitions, keepFirst, inductionHypothesis]
      change _ =
        if !item.isFixed then _
        else if seen.any item.same then _
        else _
      cases keepFirst .ok (item :: seen) rest <;> rfl

/-- What can happen at an item: it is left out, or it is kept and its key is seen from then on. -/
theorem keepFirst_cons_eq_ok_iff
    {seen : List Value}
    {item : Value}
    {rest kept : List Value} :
    keepFirst keyOf seen (item :: rest) = .ok kept ↔
      ∃ key, keyOf item = .ok key ∧ key.isFixed = true ∧
        ((seen.any key.same = true ∧ keepFirst keyOf seen rest = .ok kept) ∨
          seen.any key.same = false ∧
            ∃ others, keepFirst keyOf (key :: seen) rest = .ok others ∧ item :: others = kept) := by
  rw [keepFirst, bind_eq_ok_iff]
  refine exists_congr fun key => and_congr_right fun _ => ?_
  cases key.isFixed <;> cases seen.any key.same <;>
    simp [bind_eq_ok_iff]

theorem mem_of_mem_keepFirst
    {seen items kept : List Value}
    (isKept : keepFirst keyOf seen items = .ok kept) :
    ∀ item ∈ kept, item ∈ items := by
  induction items generalizing seen kept with
  | nil =>
      cases isKept
      exact fun _ member => member
  | cons item rest inductionHypothesis =>
      obtain ⟨key, -, -, ⟨-, inRest⟩ | ⟨-, others, areOthers, rfl⟩⟩ :=
        keepFirst_cons_eq_ok_iff.mp isKept
      · exact fun other member => .tail _ (inductionHypothesis inRest other member)
      · exact List.cons_subset_cons _ (inductionHypothesis areOthers)

@[simp] theorem same_textValue
    (first second : String) :
    (Value.text first).same (.text second) = decide (first = second) := by
  simp [Value.same]

/-- Whether some text is among the seen ones, in words of lists. -/
theorem not_seen_cons_iff
    {first second : String}
    {seen : List Value} :
    (Value.text first :: seen).any (Value.text second).same = false ↔
      second ≠ first ∧ seen.any (Value.text second).same = false := by
  simp

/-- Where the keys are texts, those of the kept items are apart, and none has been seen before. -/
theorem nodup_of_keepFirst
    {label : α → String}
    {seen items kept : List Value}
    {values : List α}
    (isKept : keepFirst keyOf seen items = .ok kept)
    (each : List.Forall₂ (fun item value => keyOf item = .ok (.text (label value))) kept values) :
    (values.map label).Nodup ∧
      ∀ value ∈ values, seen.any (Value.text (label value)).same = false := by
  induction items generalizing seen kept values with
  | nil =>
      cases isKept
      cases each
      exact ⟨.nil, fun _ none => nomatch none⟩
  | cons item rest inductionHypothesis =>
      obtain ⟨key, isKey, -, ⟨-, inRest⟩ | ⟨unseen, others, areOthers, rfl⟩⟩ :=
        keepFirst_cons_eq_ok_iff.mp isKept
      · exact inductionHypothesis inRest each
      · obtain ⟨value, laterValues, atItem, atOthers, rfl⟩ := List.forall₂_cons_left_iff.mp each
        obtain rfl : key = .text (label value) := Except.ok.inj (isKey.symm.trans atItem)
        obtain ⟨apart, allUnseen⟩ := inductionHypothesis areOthers atOthers
        constructor
        · rw [List.map_cons, List.nodup_cons]
          refine ⟨?_, apart⟩
          -- A later item with the text of this one would have a text that has been seen.
          intro repeated
          obtain ⟨later, isLater, same⟩ := List.mem_map.mp repeated
          exact (not_seen_cons_iff.mp (allUnseen later isLater)).1 same
        · intro other member
          rcases List.mem_cons.mp member with rfl | later
          · exact unseen
          · exact (not_seen_cons_iff.mp (allUnseen other later)).2

/-- Items with texts as keys are all kept where no text repeats. -/
theorem keepFirst_eq_self
    (label : α → String)
    {seen items : List Value}
    {values : List α}
    (each : List.Forall₂ (fun item value => keyOf item = .ok (.text (label value))) items values)
    (apart : (values.map label).Nodup)
    (unseen : ∀ value ∈ values, seen.any (Value.text (label value)).same = false) :
    keepFirst keyOf seen items = .ok items := by
  induction each generalizing seen with
  | nil =>
      rfl
  | @cons item value rest laterValues atItem _ inductionHypothesis =>
      rw [List.map_cons, List.nodup_cons] at apart
      rw [List.forall_mem_cons] at unseen
      have unseenLater :
          ∀ later ∈ laterValues,
            (Value.text (label value) :: seen).any (Value.text (label later)).same = false := by
        intro later member
        refine not_seen_cons_iff.mpr ⟨?_, unseen.2 later member⟩
        exact fun same => apart.1 (List.mem_map.mpr ⟨later, member, same⟩)
      exact keepFirst_cons_eq_ok_iff.mpr
        ⟨_, atItem, rfl, .inr ⟨unseen.1, rest, inductionHypothesis apart.2 unseenLater, rfl⟩⟩

end Repetitions

section JsonSections

variable {data flat result : Mapping}

theorem isJson_of_parts
    {value : Value}
    (json : value.isJson = true)
    {items : List Value}
    (isParts : parts value = .ok items) :
    ∀ item ∈ items, item.isJson = true := by
  unfold parts at isParts
  split at isParts
  · rename_i found
    cases isParts
    exact Value.isJson_of_mem_parts json found
  · contradiction

theorem isJson_of_entries
    {value : Value}
    (json : value.isJson = true)
    {fields : Mapping}
    (isFields : entries value = .ok fields) :
    fields.IsJson := by
  unfold entries at isFields
  cases value with
  | mapping fields =>
      cases isFields
      exact Value.isJson_mapping.mp json
  | scalar | set | pair | list =>
      contradiction

theorem isJson_getD
    (json : data.IsJson)
    (key : String)
    {other : Value}
    (otherIsJson : other.isJson = true) :
    ((data.get? key).getD other).isJson = true := by
  cases found : data.get? key with
  | some value =>
      exact json.get? found
  | none =>
      exact otherIsJson

theorem isJson_listAt
    (json : data.IsJson)
    (key : String) :
    (listAt data key).isJson = true :=
  isJson_getD json key rfl

theorem isJson_of_nested
    (json : data.IsJson)
    {key : String}
    {inner : Mapping}
    (isInner : nested? data key = some inner) :
    inner.IsJson := by
  obtain ⟨value, found, isEntries⟩ := Option.bind_eq_some_iff.mp isInner
  have valueIsJson := json.get? found
  cases value with
  | mapping entries =>
      cases isEntries
      exact Value.isJson_mapping.mp valueIsJson
  | scalar | set | pair | list =>
      contradiction

theorem isJson_flatPart
    (json : data.IsJson) :
    (flatPart data).IsJson :=
  (((json.erase _).erase _).erase _).erase _

theorem isJson_appendEnums
    {enums : Value}
    (enumsAreJson : enums.isJson = true)
    (json : flat.IsJson)
    (isResult : appendEnums enums flat = .ok result) :
    result.IsJson := by
  simp only [appendEnums, bind_eq_ok_iff] at isResult
  obtain ⟨own, isOwn, further, isFurther, ⟨⟩⟩ := isResult
  refine json.put _ (Value.isJson_list.mpr ?_)
  rw [List.forall_mem_append]
  exact ⟨isJson_of_parts (isJson_listAt json _) isOwn, isJson_of_parts enumsAreJson isFurther⟩

theorem isJson_liftProvider
    (dataIsJson : data.IsJson)
    (json : flat.IsJson) :
    (liftProvider data flat).IsJson := by
  unfold liftProvider
  split
  · rename_i provider found
    obtain ⟨inner, isInner, isProvider⟩ := Option.bind_eq_some_iff.mp found
    exact json.putDefault _ ((isJson_of_nested dataIsJson isInner).get? isProvider)
  · exact json

theorem isJson_liftModels
    (dataIsJson : data.IsJson)
    (json : flat.IsJson)
    (isResult : liftModels data flat = .ok result) :
    result.IsJson := by
  unfold liftModels at isResult
  split at isResult
  · rename_i inner isInner
    have innerIsJson := isJson_of_nested dataIsJson isInner
    exact isJson_appendEnums (isJson_listAt innerIsJson _)
      (json.putDefault _ (isJson_listAt innerIsJson _)) isResult
  · cases isResult
    exact json

theorem isJson_byOrigin
    {value joined : Value}
    (json : value.isJson = true)
    (isJoined : byOrigin value = .ok joined) :
    joined.isJson = true := by
  unfold byOrigin at isJoined
  split at isJoined
  · rename_i origins
    simp only [bind_eq_ok_iff] at isJoined
    obtain ⟨host, isHost, own, isOwn, ⟨⟩⟩ := isJoined
    have originsAreJson := Value.isJson_mapping.mp json
    rw [Value.isJson_list, List.forall_mem_append]
    exact ⟨isJson_of_parts (isJson_listAt originsAreJson _) isHost,
      isJson_of_parts (isJson_listAt originsAreJson _) isOwn⟩
  · cases isJoined
    exact json

theorem isJson_liftTypes
    (dataIsJson : data.IsJson)
    (json : flat.IsJson)
    (isResult : liftTypes data flat = .ok result) :
    result.IsJson := by
  unfold liftTypes at isResult
  split at isResult
  · rename_i inner isInner
    have innerIsJson := isJson_of_nested dataIsJson isInner
    simp only [bind_eq_ok_iff] at isResult
    obtain ⟨composites, areComposites, enums, areEnums, isResult⟩ := isResult
    exact isJson_appendEnums
      (isJson_byOrigin (isJson_getD innerIsJson _ rfl) areEnums)
      (json.putDefault _ (isJson_byOrigin (isJson_getD innerIsJson _ rfl) areComposites)) isResult
  · cases isResult
    exact json

theorem isJson_liftMappings
    (dataIsJson : data.IsJson)
    (json : flat.IsJson) :
    (liftMappings data flat).IsJson := by
  unfold liftMappings
  split
  · rename_i inner isInner
    exact json.putDefault _ (isJson_listAt (isJson_of_nested dataIsJson isInner) _)
  · exact json

/-- Merging does nothing, or it keeps the first enumeration of each name. -/
theorem cases_of_mergeEnums
    (isResult : mergeEnums flat = .ok result) :
    (flat.get? "enums" = none ∧ result = flat) ∨
      ∃ enums items kept,
        flat.get? "enums" = some enums ∧ parts enums = .ok items ∧
          keepFirst nameOf [] items = .ok kept ∧ result = flat.put "enums" (.list kept) := by
  unfold mergeEnums at isResult
  split at isResult
  · rename_i enums found
    simp only [bind_eq_ok_iff, firstByName_eq_keepFirst] at isResult
    obtain ⟨items, areItems, kept, areKept, ⟨⟩⟩ := isResult
    exact .inr ⟨enums, items, kept, found, areItems, areKept, rfl⟩
  · rename_i missing
    cases isResult
    exact .inl ⟨missing, rfl⟩

theorem isJson_of_kept
    {enums : Value}
    (json : enums.isJson = true)
    {items kept : List Value}
    (areItems : parts enums = .ok items)
    (areKept : keepFirst nameOf [] items = .ok kept) :
    ∀ item ∈ kept, item.isJson = true :=
  fun item member => isJson_of_parts json areItems item (mem_of_mem_keepFirst areKept item member)

theorem isJson_mergeEnums
    (json : flat.IsJson)
    (isResult : mergeEnums flat = .ok result) :
    result.IsJson := by
  rcases cases_of_mergeEnums isResult with
    ⟨-, rfl⟩ | ⟨enums, items, kept, found, areItems, areKept, rfl⟩
  · exact json
  · exact json.put _ (Value.isJson_list.mpr (isJson_of_kept (json.get? found) areItems areKept))

/-- What is flattened is a JSON section of which the enumerations are merged and the mappings
brought to their canonical form. -/
theorem exists_lifted_of_flatten
    (json : data.IsJson)
    (isFlat : flatten data = .ok flat) :
    ∃ lifted merged,
      lifted.IsJson ∧ mergeEnums lifted = .ok merged ∧ merged.IsJson ∧
        canonicalMappings merged = .ok flat := by
  simp only [flatten, bind_eq_ok_iff] at isFlat
  obtain ⟨withModels, isWithModels, withTypes, isWithTypes, merged, isMerged, isFlat⟩ := isFlat
  have modelsJson := isJson_liftModels json (isJson_liftProvider json (isJson_flatPart json))
    isWithModels
  have typesJson := isJson_liftTypes json modelsJson isWithTypes
  have liftedJson := isJson_liftMappings json typesJson
  exact ⟨_, merged, liftedJson, isMerged, isJson_mergeEnums liftedJson isMerged, isFlat⟩

end JsonSections

section Apart

variable {flat result : Mapping}

/-- The only text value in JSON that is read as a text is that text. -/
theorem eq_text_of_isJson
    {value : Value}
    (json : value.isJson = true)
    {name : String}
    (accepted : text value = .accepted name) :
    value = .text name := by
  cases value with
  | scalar scalar =>
      cases scalar with
      | text =>
          cases accepted
          rfl
      | null | bool | int | double | bytes | moment =>
          contradiction
  | set | pair | list | mapping =>
      contradiction

theorem nameOf_of_enumType
    {item : Value}
    (json : item.isJson = true)
    {enumType : EnumType}
    (accepted : Decode.enumType item = .accepted enumType) :
    nameOf item = .ok (.text enumType.name) := by
  obtain ⟨fields, rfl, inRecord⟩ := record_eq_accepted accepted
  simp only [seq_eq_accepted_iff, map_eq_accepted_iff] at inRecord
  obtain ⟨_, values, ⟨name, inName, rfl⟩, -, rfl⟩ := inRecord
  obtain ⟨_, field, found, isName⟩ := required_eq_accepted inName
  have inFields := find?_single found
  obtain rfl := eq_text_of_isJson
    ((Value.isJson_mapping.mp json).get? inFields) (text_of_filledText isName)
  change Except.ok ((Mapping.get? fields "name").getD .null) = _
  rw [inFields]
  rfl

/-- The entries that do not list operation mappings under either spelling. -/
def withoutMappings (flat : Mapping) : Mapping :=
  (flat.erase "modelOperations").erase "model_operations"

theorem get?_withoutMappings
    (flat : Mapping)
    (key : String) :
    (withoutMappings flat).get? key =
      if key = "modelOperations" ∨ key = "model_operations" then none else flat.get? key := by
  rw [withoutMappings, get?_erase, get?_erase]
  by_cases isDocument : key = "modelOperations" <;> by_cases isPlain : key = "model_operations" <;>
    simp [isDocument, isPlain, eq_comm]

/-- Either there are no mappings, or they are listed by their canonical forms. -/
theorem cases_of_canonicalMappings
    (isResult : canonicalMappings flat = .ok result) :
    result = withoutMappings flat ∨
      ∃ listed items canonical,
        (flat.get? "modelOperations").or (flat.get? "model_operations") = some listed ∧
          parts listed = .ok items ∧
          List.Forall₂ (fun item value => canonicalMapping item = .ok value) items canonical ∧
          result = (withoutMappings flat).put "modelOperations" (.list canonical) := by
  unfold canonicalMappings at isResult
  dsimp only at isResult
  split at isResult
  · cases isResult
    exact .inl rfl
  · cases isResult
    exact .inl rfl
  · rename_i listed _ isListed
    simp only [bind_eq_ok_iff, mapM_eq_ok_iff] at isResult
    obtain ⟨items, areItems, canonical, each, ⟨⟩⟩ := isResult
    exact .inr ⟨listed, items, canonical, isListed, areItems, each, rfl⟩

theorem get?_enums_canonicalMappings
    (isResult : canonicalMappings flat = .ok result) :
    result.get? "enums" = flat.get? "enums" := by
  rcases cases_of_canonicalMappings isResult with rfl | ⟨_, _, _, -, -, -, rfl⟩
  · rw [get?_withoutMappings, if_neg (by decide)]
  · rw [get?_put, if_neg (by decide), get?_withoutMappings, if_neg (by decide)]

/-- The enumerations of a flattened section have names of their own. -/
theorem nodup_enumNames
    (json : flat.IsJson)
    {merged : Mapping}
    (isMerged : mergeEnums flat = .ok merged)
    (isResult : canonicalMappings merged = .ok result)
    {enums : List EnumType}
    (accepted :
      Decode.optional (.single "enums") [] (Decode.list Decode.enumType) result =
        .accepted enums) :
    (enums.map (·.name)).Nodup := by
  rcases optional_eq_accepted accepted with ⟨-, rfl⟩ | ⟨_, field, found, isField⟩
  · exact .nil
  · have inMerged : merged.get? "enums" = some field := by
      rw [← get?_enums_canonicalMappings isResult]
      exact find?_single found
    rcases cases_of_mergeEnums isMerged with
      ⟨missing, rfl⟩ | ⟨listed, items, kept, isListed, areItems, areKept, rfl⟩
    · rw [missing] at inMerged
      contradiction
    · rw [get?_put, if_pos rfl] at inMerged
      cases inMerged
      have keptJson := isJson_of_kept (json.get? isListed) areItems areKept
      have named :
          List.Forall₂ (fun item enumType => nameOf item = .ok (.text enumType.name)) kept enums :=
        forall₂_of_list_accepted isField fun item member _ isEnum =>
          nameOf_of_enumType (keptJson item member) isEnum
      exact (nodup_of_keepFirst areKept named).1

theorem isJson_orElse
    {value : Option Value}
    (json : ∀ present, value = some present → present.isJson = true)
    {other : Unit → Value}
    (otherIsJson : (other ()).isJson = true) :
    (Value.orElse value other).isJson = true := by
  unfold Value.orElse
  split
  · rename_i present
    split
    · exact otherIsJson
    · exact json present rfl
  · exact otherIsJson

theorem isJson_of_listedRawOperations
    (json : flat.IsJson)
    {listed : List Value}
    (isListed : listedRawOperations flat = .ok listed) :
    ∀ item ∈ listed, item.isJson = true :=
  isJson_of_parts
    (isJson_orElse (fun _ found => json.get? found)
      (isJson_orElse (fun _ found => json.get? found) rfl))
    isListed

theorem isJson_of_operationNames
    (json : flat.IsJson)
    {names : List Value}
    (areNames : operationNames flat = .ok names) :
    ∀ name ∈ names, name.isJson = true := by
  simp only [operationNames, bind_eq_ok_iff] at areNames
  obtain ⟨listed, isListed, ⟨⟩⟩ := areNames
  rw [List.forall_mem_append]
  constructor
  · exact isJson_of_parts (isJson_orElse (fun _ found => json.get? found) rfl) isListed
  · intro name member
    obtain ⟨entry, isEntry, rfl⟩ := List.mem_map.mp member
    exact Value.isJson_of_isText (json entry (List.mem_filter.mp isEntry).1).1

/-- A mapping that has been brought to its canonical form lists every raw operation once. -/
theorem nodup_rawOperations
    {item canonical : Value}
    (json : item.isJson = true)
    (isCanonical : canonicalMapping item = .ok canonical)
    {mapping : OperationMapping}
    (accepted : Decode.operationMapping canonical = .accepted mapping) :
    mapping.rawOperations.Nodup := by
  simp only [canonicalMapping, bind_eq_ok_iff] at isCanonical
  obtain ⟨fields, areFields, listed, isListed, names, areNames, operations, -, raw, isRaw, ⟨⟩⟩ :=
    isCanonical
  have fieldsAreJson := isJson_of_entries json areFields
  rw [withoutRepetitions_eq_keepFirst] at isRaw
  have rawIsJson : ∀ item ∈ raw, item.isJson = true := by
    intro item member
    rcases List.mem_append.mp (mem_of_mem_keepFirst isRaw item member) with inListed | inNames
    · exact isJson_of_listedRawOperations fieldsAreJson isListed item inListed
    · exact isJson_of_operationNames fieldsAreJson areNames item (List.mem_filter.mp inNames).1
  simp only [Decode.operationMapping, Value.object, record, seq_eq_accepted_iff,
    map_eq_accepted_iff] at accepted
  obtain ⟨_, rawOperations, ⟨_, _, ⟨_, -, rfl⟩, -, rfl⟩, inRaw, rfl⟩ := accepted
  -- Of the canonical form only its list of raw operations matters here.
  have isRead : Decode.list text (.list raw) = .accepted rawOperations :=
    below_eq_accepted_iff.mp inRaw
  have asTexts :
      List.Forall₂ (fun item name => (.ok item : Except Fault Value) = .ok (.text (id name)))
        raw rawOperations :=
    forall₂_of_list_accepted isRead fun item member _ isName =>
      congrArg _ (eq_text_of_isJson (rawIsJson item member) isName)
  simpa using (nodup_of_keepFirst isRaw asTexts).1

/-- The mappings of a flattened section list every raw operation once. -/
theorem nodup_rawOperations_of_mem
    (json : flat.IsJson)
    (isResult : canonicalMappings flat = .ok result)
    {mappings : List OperationMapping}
    (accepted :
      Decode.optional ⟨"modelOperations", "model_operations"⟩ []
        (Decode.list Decode.operationMapping) result = .accepted mappings) :
    ∀ mapping ∈ mappings, mapping.rawOperations.Nodup := by
  rcases optional_eq_accepted accepted with ⟨-, rfl⟩ | ⟨spelling, field, found, isField⟩
  · exact fun _ none => nomatch none
  · unfold FieldName.find? at found
    rcases cases_of_canonicalMappings isResult with
      rfl | ⟨listed, items, canonical, isListed, areItems, each, rfl⟩
    · simp [get?_withoutMappings] at found
    · rw [get?_put, if_pos rfl] at found
      cases found
      have listedIsJson : listed.isJson = true := by
        rcases Option.or_eq_some_iff.mp isListed with inDocument | ⟨-, inPlain⟩
        · exact json.get? inDocument
        · exact json.get? inPlain
      intro mapping member
      obtain ⟨value, isValue, isMapping⟩ :=
        exists_original_of_mem (list_items_eq_accepted_iff.mp isField) member
      obtain ⟨item, isItem, isCanonical⟩ := exists_original_of_mem each isValue
      exact nodup_rawOperations (isJson_of_parts listedIsJson areItems item isItem) isCanonical
        isMapping

end Apart

theorem isSettled_of_flatten
    {data flat : Mapping}
    (json : data.IsJson)
    (isFlat : flatten data = .ok flat)
    {document : Document}
    (accepted : Decode.document (.mapping flat) = .accepted document) :
    IsSettled document := by
  obtain ⟨lifted, merged, liftedJson, isMerged, mergedJson, isFlat⟩ :=
    exists_lifted_of_flatten json isFlat
  have inRecord : documentFields flat = .accepted document :=
    (check_eq_accepted_iff.mp accepted).1
  simp only [documentFields, seq_eq_accepted_iff, map_eq_accepted_iff] at inRecord
  obtain ⟨_, support, ⟨_, mappings, ⟨_, composites, ⟨_, enums, ⟨_, models, ⟨_, features,
    ⟨provider, -, rfl⟩, -, rfl⟩, -, rfl⟩, inEnums, rfl⟩, -, rfl⟩, inMappings, rfl⟩, -, rfl⟩ :=
    inRecord
  exact ⟨nodup_enumNames liftedJson isMerged isFlat inEnums,
    nodup_rawOperations_of_mem mergedJson isFlat inMappings⟩

end ZodSchemas.Source
