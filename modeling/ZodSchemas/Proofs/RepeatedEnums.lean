import ZodSchemas.Proofs.OpenPlaces
import ZodSchemas.Proofs.StructuralChecks

namespace ZodSchemas

/-!
# Repeated enumerations

Enumerations come from several lists of a section, and of those with one name the
first remains.  This happens before the document is checked, so the check for
repeated names finds none: an enumeration that contradicts an earlier one is read
as if it was not there, and enumerations alone never are an error.
-/

open Data
open Metadata
open Decode

namespace Check

open Findings

/-- The last checks make no errors. -/
theorem hasErrors_full
    (settings : Settings)
    (document : Document) :
    (full settings document).hasErrors =
      Findings.hasErrors (metadata document ++ Check.settings settings document) := by
  have noErrors : (references settings document).hasErrors = false := by
    rw [hasErrors_eq_false_iff, references, List.forall_mem_map]
    rintro reference member ⟨⟩
  unfold full
  dsimp only
  split
  · rfl
  · rw [Findings.hasErrors, List.any_append]
    change (_ || (references settings document).hasErrors) = _
    rw [noErrors, Bool.or_false]
    rfl

/-- Enumerations with names of their own earn warnings at most. -/
theorem hasErrors_enumerations
    {document : Document}
    (apart : document.enumNames.Nodup) :
    (enumerations document).hasErrors = false := by
  have none : duplicates document.enumNames = [] := duplicates_eq_nil_iff.mpr apart
  simp only [enumerations, none, List.map_nil, List.nil_append, hasErrors_append_eq_false_iff,
    hasErrors_flatMap_eq_false_iff]
  constructor
  · rw [hasErrors_eq_false_iff, List.forall_mem_map]
    rintro name member ⟨⟩
  · intro model _
    rw [hasErrors_eq_false_iff]
    intro finding member
    obtain ⟨field, -, isFinding⟩ := List.mem_filterMap.mp member
    unfold unknownEnumFinding? at isFinding
    split at isFinding
    · cases isFinding
      rintro ⟨⟩
    · contradiction

theorem mappingsFrom_withoutEnums
    (document : Document)
    (seen : List String)
    (mappings : List OperationMapping) :
    mappingsFrom { document with enums := [] } seen mappings =
      mappingsFrom document seen mappings := by
  induction mappings generalizing seen with
  | nil =>
      rfl
  | cons mapping rest inductionHypothesis =>
      rw [mappingsFrom, mappingsFrom, inductionHypothesis]
      rfl

/-- Where enumerations have names of their own, the errors are those of everything else. -/
theorem hasErrors_full_of_enumsApart
    {settings : Settings}
    {document : Document}
    (apart : document.enumNames.Nodup) :
    (full settings document).hasErrors =
      (full settings { document with enums := [] }).hasErrors := by
  have noneLeft : (enumerations { document with enums := [] }).hasErrors = false :=
    hasErrors_enumerations List.nodup_nil
  have sameErrors (first second : Findings) :
      Findings.hasErrors (first ++ second) = (first.hasErrors || second.hasErrors) :=
    List.any_append
  rw [hasErrors_full, hasErrors_full]
  simp only [metadata, sameErrors, hasErrors_enumerations apart, noneLeft, mappings,
    mappingsFrom_withoutEnums]
  rfl

end Check

namespace Source

open Data.Mapping

section LeftOut

variable {keyOf : Value → Except Fault Value}

/-- Nothing but the text itself is the same as a text. -/
theorem eq_text_of_same
    {text : String}
    {value : Value}
    (same : (Value.text text).same value = true ∨ value.same (.text text) = true) :
    value = .text text := by
  cases value with
  | scalar scalar =>
      have isSame : scalar = .text text := by
        rcases same with same | same
        · cases scalar <;> simp_all [Value.same, Scalar.same, Scalar.integer?]
        · simpa [Value.same] using same
      rw [isSame]
      rfl
  | set | pair | list | mapping =>
      simp [Value.same] at same

theorem keepFirst_cons_of_seen
    {seen rest : List Value}
    {item : Value}
    {text : String}
    (isKey : keyOf item = .ok (.text text))
    (isSeen : seen.any (Value.text text).same = true) :
    keepFirst keyOf seen (item :: rest) = keepFirst keyOf seen rest := by
  simp only [keepFirst, isKey, isSeen, Value.isFixed, bind, Except.bind, Bool.not_true,
    Bool.false_eq_true, if_false, if_true]

/-- A name has been seen, or is the key of one of several items. -/
def Occurs (keyOf : Value → Except Fault Value) (name : Value) (seen items : List Value) : Prop :=
  seen.any name.same = true ∨ ∃ item ∈ items, ∃ key, keyOf item = .ok key ∧ key.same name = true

/-- A name that occurs still does behind an item whose key has been seen. -/
theorem Occurs.tail
    {name item : Value}
    {seen further rest : List Value}
    {text : String}
    (occurs : Occurs keyOf name seen (item :: rest))
    (isKey : keyOf item = .ok (.text text))
    (isSeen : further.any (Value.text text).same = true)
    (stillSeen : ∀ key ∈ seen, key ∈ further) :
    Occurs keyOf name further rest := by
  rcases occurs with nameSeen | ⟨other, member, key, isOther, same⟩
  · obtain ⟨key, member, same⟩ := List.any_eq_true.mp nameSeen
    exact .inl (List.any_eq_true.mpr ⟨key, stillSeen key member, same⟩)
  · rcases List.mem_cons.mp member with rfl | inRest
    · obtain rfl := Except.ok.inj (isKey.symm.trans isOther)
      obtain rfl := eq_text_of_same (.inl same)
      exact .inl isSeen
    · exact .inr ⟨other, inRest, key, isOther, same⟩

/-- An item with the name of an earlier one is left out, if only names that are texts are kept. -/
theorem keepFirst_append_cons_iff
    {seen earlier later kept : List Value}
    {second name : Value}
    (isName : keyOf second = .ok name)
    (seenAreTexts : ∀ key ∈ seen, ∃ text, key = .text text)
    (keptAreTexts : ∀ item ∈ kept, ∃ text, keyOf item = .ok (.text text))
    (occurs : Occurs keyOf name seen earlier) :
    keepFirst keyOf seen (earlier ++ second :: later) = .ok kept ↔
      keepFirst keyOf seen (earlier ++ later) = .ok kept := by
  induction earlier generalizing seen kept with
  | nil =>
      have isSeen : seen.any name.same = true := by
        simpa [Occurs] using occurs
      obtain ⟨key, member, same⟩ := List.any_eq_true.mp isSeen
      obtain ⟨text, rfl⟩ := seenAreTexts key member
      obtain rfl := eq_text_of_same (.inr same)
      rw [List.nil_append, List.nil_append, keepFirst_cons_of_seen isName isSeen]
  | cons item rest inductionHypothesis =>
      rw [List.cons_append, List.cons_append, keepFirst_cons_eq_ok_iff, keepFirst_cons_eq_ok_iff]
      refine exists_congr fun key => and_congr_right fun isKey => and_congr_right fun _ => ?_
      -- Where `item` is the earlier one itself, its key has been seen or is seen from then on.
      refine or_congr (and_congr_right fun isSeen => ?_) (and_congr_right fun unseen => ?_)
      · obtain ⟨seenKey, isMember, sameKey⟩ := List.any_eq_true.mp isSeen
        obtain ⟨text, rfl⟩ := seenAreTexts seenKey isMember
        obtain rfl := eq_text_of_same (.inr sameKey)
        exact inductionHypothesis seenAreTexts keptAreTexts
          (occurs.tail isKey isSeen fun _ member => member)
      · refine exists_congr fun others => and_congr_left fun isKept => ?_
        subst isKept
        rw [List.forall_mem_cons] at keptAreTexts
        obtain ⟨⟨text, isText⟩, othersAreTexts⟩ := keptAreTexts
        obtain rfl := Except.ok.inj (isKey.symm.trans isText)
        refine inductionHypothesis ?_ othersAreTexts
          (occurs.tail isKey (by simp) fun _ member => .tail _ member)
        rw [List.forall_mem_cons]
        exact ⟨⟨text, rfl⟩, seenAreTexts⟩

end LeftOut

section Places

variable {section_ : List Value → Mapping} {ahead : Except Fault (List Value)}

/-- The enumerations in front of those beside the composites. -/
def enumsBeforeTypes (data : Mapping) : Except Fault (List Value) := do
  let own ← parts (listAt data "enums")
  let ofModels ← modelEnums data
  .ok (own ++ ofModels)

/-- A section with one of its lists of enumerations left open, and the enumerations that are listed
ahead of it. -/
inductive IsEnumPlace : (List Value → Mapping) → Except Fault (List Value) → Prop where
  | own (rest : Mapping) :
      IsEnumPlace (fun items => rest.put "enums" (.list items)) (.ok [])
  | ofModels (rest models : Mapping) :
      IsEnumPlace
        (fun items => rest.put "datamodel" (.mapping (models.put "enums" (.list items))))
        (parts (listAt rest "enums"))
  | ofTypes (rest types : Mapping) :
      IsEnumPlace
        (fun items => rest.put "schema" (.mapping (types.put "enumTypes" (.list items))))
        (enumsBeforeTypes rest)
  | ofHost (rest types origins : Mapping) :
      IsEnumPlace
        (fun items => rest.put "schema" (.mapping
          (types.put "enumTypes" (.mapping (origins.put "prisma" (.list items))))))
        (enumsBeforeTypes rest)
  | ofOwnTypes (rest types origins : Mapping) :
      IsEnumPlace
        (fun items => rest.put "schema" (.mapping
          (types.put "enumTypes" (.mapping (origins.put "model" (.list items))))))
        (do
          let before ← enumsBeforeTypes rest
          let ofHost ← parts (listAt origins "prisma")
          .ok (before ++ ofHost))

/-- Sections that are read alike, enumerations aside. -/
structure AgreeBesideEnums (data other : Mapping) : Prop where
  keys : AgreeOutside ["enums", "datamodel", "schema"] data other
  models : nestedModels? data = nestedModels? other
  composites : nestedComposites? data = nestedComposites? other

theorem isReadAs_iff_of_agreeBesideEnums
    {data other : Mapping}
    (agree : AgreeBesideEnums data other)
    {document : Document}
    (sameEnums : ReadsEnums data document.enums ↔ ReadsEnums other document.enums) :
    IsReadAs data document ↔ IsReadAs other document := by
  rw [isReadAs_iff, isReadAs_iff, sameEnums, nestedProvider?_congr agree.keys (by decide),
    nestedMappings?_congr agree.keys (by decide), agree.models, agree.composites,
    agree.keys "provider" (by decide), agree.keys "previewFeatures" (by decide),
    agree.keys "preview_features" (by decide), agree.keys "models" (by decide),
    agree.keys "inputObjectTypes" (by decide), agree.keys "input_object_types" (by decide),
    agree.keys "modelOperations" (by decide), agree.keys "model_operations" (by decide),
    agree.keys "aggregateSupport" (by decide), agree.keys "aggregate_support" (by decide)]

theorem exists_isOpenUnder
    (isPlace : IsEnumPlace section_ ahead) :
    ∃ key, IsOpenUnder key section_ := by
  cases isPlace with
  | own rest =>
      exact ⟨"enums", .place (by decide) rest _⟩
  | ofModels rest =>
      exact ⟨"datamodel", .place (by decide) rest _⟩
  | ofTypes rest | ofHost rest | ofOwnTypes rest =>
      exact ⟨"schema", .place (by decide) rest _⟩

/-- Enumerations beside the composites are apart from them. -/
theorem agreeBesideEnums_schema
    (rest types : Mapping)
    (value other : Value) :
    AgreeBesideEnums
      (rest.put "schema" (.mapping (types.put "enumTypes" value)))
      (rest.put "schema" (.mapping (types.put "enumTypes" other))) where
  keys := agreeOutside_put_put (by decide) rest _ _
  models :=
    nestedModels?_congr (agreeOutside_put_put (List.mem_singleton_self "schema") rest _ _)
      (by decide)
  composites := by
    have sameTypes (value : Value) :
        typesAt (types.put "enumTypes" value) "inputObjectTypes" =
          typesAt types "inputObjectTypes" := by
      rw [typesAt, typesAt, Decode.get?_put, if_neg (by decide)]
    have nested (value : Value) :
        nested? (rest.put "schema" (.mapping (types.put "enumTypes" value))) "schema" =
          some (types.put "enumTypes" value) := by
      rw [nested?_put, if_pos rfl]
      rfl
    simp only [nestedComposites?, nested, sameTypes]

theorem agreeBesideEnums_of_isEnumPlace
    (isPlace : IsEnumPlace section_ ahead)
    (items others : List Value) :
    AgreeBesideEnums (section_ items) (section_ others) := by
  cases isPlace with
  | own rest =>
      have same := agreeOutside_put_put (List.mem_singleton_self "enums") rest (.list items)
        (.list others)
      exact ⟨agreeOutside_put_put (by decide) rest _ _, nestedModels?_congr same (by decide),
        nestedComposites?_congr same (by decide)⟩
  | ofModels rest models =>
      refine ⟨agreeOutside_put_put (by decide) rest _ _, ?_, ?_⟩
      · have nested (items : List Value) :
            nestedModels?
                (rest.put "datamodel" (.mapping (models.put "enums" (.list items)))) =
              some (listAt models "models") := by
          rw [nestedModels?, nested?_put, if_pos rfl]
          exact congrArg some (listAt_put_of_ne models (by decide) _)
        rw [nested, nested]
      · exact nestedComposites?_congr
          (agreeOutside_put_put (List.mem_singleton_self "datamodel") rest _ _) (by decide)
  | ofTypes rest types | ofHost rest types | ofOwnTypes rest types =>
      exact agreeBesideEnums_schema rest types _ _

section TypePlaces

variable (rest types : Mapping) (value : Value)

theorem enumsBeforeTypes_schema :
    enumsBeforeTypes (rest.put "schema" value) = enumsBeforeTypes rest := by
  rw [enumsBeforeTypes, enumsBeforeTypes, listAt_put_of_ne rest (by decide), modelEnums,
    modelEnums, nested?_put, if_neg (by decide)]

theorem typeEnums_schema :
    typeEnums (rest.put "schema" (.mapping (types.put "enumTypes" value))) =
      byOrigin value >>= parts := by
  rw [typeEnums, nested?_put, if_pos rfl]
  change typesAt (types.put "enumTypes" value) "enumTypes" >>= parts = _
  rw [typesAt, Decode.get?_put, if_pos rfl]
  rfl

theorem parts_list
    (items : List Value) :
    parts (.list items) = .ok items :=
  rfl

theorem enumItems_schema_eq :
    enumItems (rest.put "schema" (.mapping (types.put "enumTypes" value))) = (do
      let before ← enumsBeforeTypes rest
      let ofTypes ← byOrigin value >>= parts
      .ok (before ++ ofTypes)) := by
  rw [← enumsBeforeTypes_schema rest, ← typeEnums_schema rest types]
  simp only [enumItems, enumsBeforeTypes, bind_assoc]
  rfl

end TypePlaces

/-- What is put at an open place is listed between what is ahead of it and what is behind it. -/
theorem exists_enumItems_around
    (isPlace : IsEnumPlace section_ ahead) :
    ∃ last : Except Fault (List Value), ∀ items,
      enumItems (section_ items) = (do
        let before ← ahead
        let after ← last
        .ok (before ++ items ++ after)) := by
  cases isPlace with
  | own rest =>
      refine ⟨do
        let ofModels ← modelEnums rest
        let ofTypes ← typeEnums rest
        .ok (ofModels ++ ofTypes), fun items => ?_⟩
      have own : parts (listAt (rest.put "enums" (.list items)) "enums") = .ok items :=
        lists_put rest items
      have ofModels : modelEnums (rest.put "enums" (.list items)) = modelEnums rest := by
        rw [modelEnums, modelEnums, nested?_put, if_neg (by decide)]
      have ofTypes : typeEnums (rest.put "enums" (.list items)) = typeEnums rest := by
        rw [typeEnums, typeEnums, nested?_put, if_neg (by decide)]
      rw [enumItems, own, ofModels, ofTypes]
      simp [ok_bind]
  | ofModels rest models =>
      refine ⟨typeEnums rest, fun items => ?_⟩
      dsimp only
      generalize isData :
        rest.put "datamodel" (.mapping (models.put "enums" (.list items))) = data
      have own : listAt data "enums" = listAt rest "enums" := by
        rw [← isData, listAt_put_of_ne rest (by decide)]
      have ofModels : modelEnums data = .ok items := by
        rw [← isData, modelEnums, nested?_put, if_pos rfl]
        exact lists_put models items
      have ofTypes : typeEnums data = typeEnums rest := by
        rw [← isData, typeEnums, typeEnums, nested?_put, if_neg (by decide)]
      rw [enumItems, own, ofModels, ofTypes]
      rfl
  | ofTypes rest types =>
      refine ⟨.ok [], fun items => ?_⟩
      rw [enumItems_schema_eq, byOrigin]
      · simp [ok_bind, parts_list]
      · rintro _ ⟨⟩
  | ofHost rest types origins =>
      refine ⟨parts (listAt origins "model"), fun items => ?_⟩
      rw [enumItems_schema_eq, byOrigin, listAt_put_self,
        listAt_put_of_ne origins (by decide : "prisma" ≠ "model")]
      simp [ok_bind, parts_list]
  | ofOwnTypes rest types origins =>
      refine ⟨.ok [], fun items => ?_⟩
      rw [enumItems_schema_eq, byOrigin, listAt_put_self,
        listAt_put_of_ne origins (by decide : "model" ≠ "prisma")]
      simp [ok_bind, parts_list]

/-- The enumerations put at an open place are read together with those around them. -/
theorem readsEnums_iff_of_around
    {last : Except Fault (List Value)}
    {items : List Value}
    (areListed :
      enumItems (section_ items) = (do
        let before ← ahead
        let after ← last
        .ok (before ++ items ++ after)))
    {enums : List EnumType} :
    ReadsEnums (section_ items) enums ↔
      ∃ before after, ahead = .ok before ∧ last = .ok after ∧
        ∃ kept, keepFirst nameOf [] (before ++ items ++ after) = .ok kept ∧
          Decode.list enumType (.list kept) = .accepted enums := by
  simp only [ReadsEnums, firstByName_eq_keepFirst, areListed, bind_eq_ok_iff]
  constructor
  · rintro ⟨_, kept, ⟨before, isBefore, after, isAfter, ⟨⟩⟩, areKept, areRead⟩
    exact ⟨before, after, isBefore, isAfter, kept, areKept, areRead⟩
  · rintro ⟨before, after, isBefore, isAfter, kept, areKept, areRead⟩
    exact ⟨_, kept, ⟨before, isBefore, after, isAfter, rfl⟩, areKept, areRead⟩

end Places

section Conflicts

variable {section_ raw : List Value → Mapping} {ahead : Except Fault (List Value)}
  {front behind : List Value} {first second : Value}

theorem isJson_of_typesAt
    {types : Mapping}
    (json : types.IsJson)
    {key : String}
    {listed : Value}
    (isListed : typesAt types key = .ok listed) :
    listed.isJson = true :=
  isJson_byOrigin (isJson_getD json key rfl) isListed

theorem isJson_of_enumItems
    {data : Mapping}
    (json : data.IsJson)
    {items : List Value}
    (areItems : enumItems data = .ok items) :
    ∀ item ∈ items, item.isJson = true := by
  obtain ⟨own, ofModels, ofTypes, isOwn, areOfModels, areOfTypes, rfl⟩ :=
    enumItems_eq_ok_iff.mp areItems
  rw [List.forall_mem_append, List.forall_mem_append]
  refine ⟨⟨isJson_of_parts (isJson_listAt json _) isOwn, ?_⟩, ?_⟩
  · unfold modelEnums at areOfModels
    split at areOfModels
    · rename_i models isNested
      exact isJson_of_parts (isJson_listAt (isJson_of_nested json isNested) _) areOfModels
    · cases areOfModels
      exact List.forall_mem_nil _
  · unfold typeEnums at areOfTypes
    split at areOfTypes
    · rename_i types isNested
      obtain ⟨listed, isListed, areParts⟩ := bind_eq_ok_iff.mp areOfTypes
      exact isJson_of_parts (isJson_of_typesAt (isJson_of_nested json isNested) isListed) areParts
    · cases areOfTypes
      exact List.forall_mem_nil _

/-- Enumerations that are kept and read have texts as names. -/
theorem nameOf_of_kept
    {items kept : List Value}
    (json : ∀ item ∈ items, item.isJson = true)
    (areKept : keepFirst nameOf [] items = .ok kept)
    {enums : List EnumType}
    (areRead : Decode.list enumType (.list kept) = .accepted enums) :
    ∀ item ∈ kept, ∃ text, nameOf item = .ok (.text text) := by
  intro item member
  obtain ⟨enumType, -, isRead⟩ :=
    exists_original_of_mem (list_items_eq_accepted_iff.mp areRead).flip member
  exact ⟨enumType.name, nameOf_of_enumType
    (json item (mem_of_mem_keepFirst areKept item member)) isRead⟩

/-- The values that an enumeration lists, with objects replaced by their names. -/
def flattenedValues? (item : Value) : Option (Decoded Value) :=
  (item.entries?.bind (·.get? "values")).map flattenValues

/-- Two enumerations have the same name, and different values once those are flattened. -/
structure Conflict (first second : Value) : Prop where
  sameName :
    ∃ name other, nameOf first = .ok name ∧ nameOf second = .ok other ∧ name.same other = true
  differ : flattenedValues? first ≠ flattenedValues? second

/-- The same enumerations are kept and read without one whose name is an earlier one's. -/
theorem exists_kept_iff_of_conflict
    (json : ∀ item ∈ front ++ second :: behind, item.isJson = true)
    (conflict : Conflict first second)
    (isEarlier : first ∈ front)
    (enums : List EnumType) :
    (∃ kept, keepFirst nameOf [] (front ++ second :: behind) = .ok kept ∧
        Decode.list enumType (.list kept) = .accepted enums) ↔
      ∃ kept, keepFirst nameOf [] (front ++ behind) = .ok kept ∧
        Decode.list enumType (.list kept) = .accepted enums := by
  obtain ⟨name, other, isName, isOther, same⟩ := conflict.sameName
  have sameKept
      {kept : List Value}
      (keptAreTexts : ∀ item ∈ kept, ∃ text, nameOf item = .ok (.text text)) :
      keepFirst nameOf [] (front ++ second :: behind) = .ok kept ↔
        keepFirst nameOf [] (front ++ behind) = .ok kept :=
    keepFirst_append_cons_iff isOther (List.forall_mem_nil _) keptAreTexts
      (.inr ⟨first, isEarlier, name, isName, same⟩)
  have fewer : ∀ item ∈ front ++ behind, item ∈ front ++ second :: behind := by
    simp only [List.mem_append, List.mem_cons]
    tauto
  refine exists_congr fun kept => and_congr_left fun areRead => ?_
  constructor
  · intro areKept
    exact (sameKept (nameOf_of_kept json areKept areRead)).mp areKept
  · intro areKept
    have fewerJson := fun item member => json item (fewer item member)
    exact (sameKept (nameOf_of_kept fewerJson areKept areRead)).mpr areKept

/-- A section is read as the same document without an enumeration whose name is an earlier one's. -/
theorem parseMetadata_iff_of_conflict
    (isPlace : IsEnumPlace section_ ahead)
    (json : (section_ (front ++ second :: behind)).IsJson)
    (conflict : Conflict first second)
    (isEarlier : ∀ before, ahead = .ok before → first ∈ before ++ front)
    (document : Document) :
    parseMetadata (section_ (front ++ second :: behind)) = .ok document ↔
      parseMetadata (section_ (front ++ behind)) = .ok document := by
  rw [parseMetadata_eq_ok_iff_isReadAs, parseMetadata_eq_ok_iff_isReadAs]
  refine isReadAs_iff_of_agreeBesideEnums (agreeBesideEnums_of_isEnumPlace isPlace _ _) ?_
  obtain ⟨last, areListed⟩ := exists_enumItems_around isPlace
  rw [readsEnums_iff_of_around (areListed _), readsEnums_iff_of_around (areListed _)]
  refine exists_congr fun before => exists_congr fun after =>
    and_congr_right fun isBefore => and_congr_right fun isAfter => ?_
  have isListed :
      enumItems (section_ (front ++ second :: behind)) =
        .ok ((before ++ front) ++ second :: (behind ++ after)) := by
    rw [areListed, isBefore, isAfter]
    simp [ok_bind]
  have atSecond := exists_kept_iff_of_conflict (isJson_of_enumItems json isListed) conflict
    (isEarlier before isBefore) document.enums
  simpa only [List.append_assoc, List.cons_append] using atSecond

theorem isJson_of_isDocumentOf
    (isDocument : IsDocumentOf section_ raw)
    {items : List Value}
    (json : (raw items).IsJson) :
    (section_ items).IsJson := by
  cases isDocument with
  | metadata rest =>
      have stated :
          (rest.put "metadata" (.mapping (section_ items))).get? "metadata" =
            some (.mapping (section_ items)) := by
        rw [Decode.get?_put, if_pos rfl]
      exact Value.isJson_mapping.mp (json.get? stated)
  | dmmf rest =>
      have stated :
          (rest.put "dmmf" (.mapping (section_ items))).get? "dmmf" =
            some (.mapping (section_ items)) := by
        rw [Decode.get?_put, if_pos rfl]
      exact Value.isJson_mapping.mp (json.get? stated)
  | bare =>
      exact json

/-- A document is refused, or all checks together find an error. -/
def IsNoticed (raw : Mapping) : Prop :=
  ∀ parsed, parse raw = .ok parsed →
    (Check.full parsed.settings parsed.document).hasErrors = true

/-- A document is refused, or all checks together find an error even if no enumerations are left. -/
def IsFaultyBesideEnums (raw : Mapping) : Prop :=
  ∀ parsed, parse raw = .ok parsed →
    (Check.full parsed.settings { parsed.document with enums := [] }).hasErrors = true

/-- An enumeration of roles with one value. -/
def role (value : String) : Value :=
  .object [("name", .text "Role"), ("values", .texts [value])]

/-- A section without models that lists enumerations. -/
def roleSection (enums : List Value) : Mapping :=
  (named [("models", .list [])]).put "enums" (.list enums)

def roleSource (enums : List Value) : Mapping :=
  Mapping.put [] "metadata" (.mapping (roleSection enums))

theorem conflict_role :
    Conflict (role "A") (role "B") where
  sameName := ⟨.text "Role", .text "Role", rfl, rfl, rfl⟩
  differ := by
    change some (Decoded.accepted (Value.texts ["A"])) ≠ some (.accepted (.texts ["B"]))
    simp [Value.texts, Value.text]

/-- Two roles with different values pass all checks. -/
theorem not_isNoticed_roleSource :
    (roleSource [role "A", role "B"]).IsJson ∧
      metadataSection? (roleSource [role "A", role "B"]) =
        some (roleSection [role "A", role "B"]) ∧
        enumItems (roleSection [role "A", role "B"]) = .ok [role "A", role "B"] ∧
          Conflict (role "A") (role "B") ∧ ¬ IsNoticed (roleSource [role "A", role "B"]) := by
  refine ⟨Value.isJson_mapping.mp (by decide), rfl, rfl, conflict_role, fun isNoticed => ?_⟩
  have isParsed :
      parse (roleSource [role "A", role "B"]) =
        .ok ⟨⟨.postgresql, [], [], [⟨"Role", ["A"]⟩], [], [], none⟩, Settings.default⟩ := by
    decide +kernel
  exact absurd (isNoticed _ isParsed) (by decide +kernel)

/-- The enumerations of a document that is parsed from JSON have names of their own. -/
theorem nodup_enumNames_of_parse
    {raw : Mapping}
    (json : raw.IsJson)
    {parsed : Parsed}
    (isParsed : parse raw = .ok parsed) :
    parsed.document.enumNames.Nodup := by
  obtain ⟨data, isSection, isRead, -⟩ := parse_eq_ok_iff.mp isParsed
  obtain ⟨flat, isFlat, isDocument⟩ := bind_eq_ok_iff.mp isRead
  exact (isSettled_of_flatten (isJson_metadataSection json isSection) isFlat
    (accept_eq_ok_iff.mp isDocument)).enumsApart

/-- An enumeration that contradicts an earlier one is noticed exactly if the document is refused or
found fault with anyway: without that enumeration, and for another reason than its enumerations. -/
theorem isNoticed_iff_of_conflict
    (isPlace : IsEnumPlace section_ ahead)
    (isDocument : IsDocumentOf section_ raw)
    (json : (raw (front ++ second :: behind)).IsJson)
    (conflict : Conflict first second)
    (isEarlier : ∀ before, ahead = .ok before → first ∈ before ++ front) :
    IsNoticed (raw (front ++ second :: behind)) ↔ IsFaultyBesideEnums (raw (front ++ behind)) := by
  obtain ⟨key, isOpen⟩ := exists_isOpenUnder isPlace
  refine forall_congr' fun parsed => ?_
  rw [← parse_congr_of_parseMetadata isDocument isOpen
    (parseMetadata_iff_of_conflict isPlace (isJson_of_isDocumentOf isDocument json) conflict
      isEarlier) parsed]
  refine imp_congr_right fun isParsed => ?_
  rw [Check.hasErrors_full_of_enumsApart (nodup_enumNames_of_parse json isParsed)]

theorem isNoticed_iff_of_conflict_role :
    IsEnumPlace roleSection (.ok []) ∧ IsDocumentOf roleSection roleSource ∧
      (roleSource ([role "A"] ++ role "B" :: [])).IsJson ∧ Conflict (role "A") (role "B") ∧
        (∀ before, Except.ok [] = (Except.ok before : Except Fault (List Value)) →
          role "A" ∈ before ++ [role "A"]) ∧
          (IsNoticed (roleSource ([role "A"] ++ role "B" :: [])) ↔
            IsFaultyBesideEnums (roleSource ([role "A"] ++ []))) := by
  have isPlace : IsEnumPlace roleSection (.ok []) := .own (named [("models", .list [])])
  have isDocument : IsDocumentOf roleSection roleSource := .metadata []
  have json : (roleSource ([role "A"] ++ role "B" :: [])).IsJson :=
    Value.isJson_mapping.mp (by decide)
  have isEarlier :
      ∀ before, Except.ok [] = (Except.ok before : Except Fault (List Value)) →
        role "A" ∈ before ++ [role "A"] := by
    rintro _ ⟨⟩
    exact List.mem_cons_self
  exact ⟨isPlace, isDocument, json, conflict_role, isEarlier,
    isNoticed_iff_of_conflict isPlace isDocument json conflict_role isEarlier⟩

end Conflicts

end Source

end ZodSchemas
