import ZodSchemas.Proofs.Formats
import ZodSchemas.Proofs.KeySpellings

namespace ZodSchemas

/-!
# Unknown keys

Introspection lists more than a document needs.  The format of a metadata section
says which keys count at each of its levels; a key that does not count there may
be added, with any value, and the section is read as the same document.  In an
operation mapping every key could be an operation, so there the names of all
operations count.
-/

open Data
open Metadata

namespace Decode.Format

/-- An alternative of the type of a composite field. -/
def alternative : Format :=
  .record (wholes alternativeNames)

def inputField : Format :=
  .record
    ((⟨"inputTypes", "input_types"⟩, .list alternative) ::
      wholes [.single "name", ⟨"isRequired", "is_required"⟩, ⟨"isNullable", "is_nullable"⟩])

def composite : Format :=
  .record [(.single "name", .whole), (.single "fields", .list inputField)]

def modelField : Format :=
  .record (wholes [.single "name", .single "kind", .single "type", ⟨"isList", "is_list"⟩,
    ⟨"isRequired", "is_required"⟩])

def model : Format :=
  .record [(.single "name", .whole), (.single "fields", .list modelField)]

/-- A value of an enumeration that is given as an object. -/
def enumValue : Format :=
  .record [(.single "name", .whole)]

def enumType : Format :=
  .record [(.single "name", .whole), (.single "values", .list enumValue)]

/-- The flags of a model for its aggregates. -/
def aggregateSupport : Format :=
  .record (wholes (Aggregate.all.map fun aggregate => .single aggregate.label))

variable {fields : List (FieldName × Format)} {name : FieldName} {decode : Value → Decoded α}

theorem areIgnoredBy_required_whole
    (isField : IsField fields name .whole) :
    AreIgnoredBy fields (required name decode) :=
  areIgnoredBy_required isField (isIgnoredBy_whole decode)

theorem areIgnoredBy_optional_whole
    {absent : α}
    (isField : IsField fields name .whole) :
    AreIgnoredBy fields (optional name absent decode) :=
  areIgnoredBy_optional isField (isIgnoredBy_whole decode)

theorem isIgnoredBy_alternative :
    alternative.IsIgnoredBy Decode.alternative :=
  AreIgnoredBy.record
    (((((areIgnoredBy_required_whole ⟨rfl, rfl⟩).map _).seq
      (areIgnoredBy_optional_whole ⟨rfl, rfl⟩)).seq
      (areIgnoredBy_optional_whole ⟨rfl, rfl⟩)).seq
      (areIgnoredBy_optional_whole ⟨rfl, rfl⟩)) _

theorem isIgnoredBy_inputField :
    inputField.IsIgnoredBy Decode.inputField :=
  AreIgnoredBy.record
    (((((areIgnoredBy_required_whole ⟨rfl, rfl⟩).map _).seq
      (areIgnoredBy_optional_whole ⟨rfl, rfl⟩)).seq
      (areIgnoredBy_optional_whole ⟨rfl, rfl⟩)).seq
      (areIgnoredBy_optional ⟨rfl, rfl⟩ isIgnoredBy_alternative.list)) _

theorem isIgnoredBy_composite :
    composite.IsIgnoredBy Decode.composite :=
  AreIgnoredBy.record
    (((areIgnoredBy_required_whole ⟨rfl, rfl⟩).map _).seq
      (areIgnoredBy_optional ⟨rfl, rfl⟩ isIgnoredBy_inputField.list)) _

theorem isIgnoredBy_modelField :
    modelField.IsIgnoredBy Decode.modelField :=
  AreIgnoredBy.record
    ((((((areIgnoredBy_required_whole ⟨rfl, rfl⟩).map _).seq
      (areIgnoredBy_optional_whole ⟨rfl, rfl⟩)).seq
      (areIgnoredBy_required_whole ⟨rfl, rfl⟩)).seq
      (areIgnoredBy_optional_whole ⟨rfl, rfl⟩)).seq
      (areIgnoredBy_optional_whole ⟨rfl, rfl⟩)) _

theorem isIgnoredBy_model :
    model.IsIgnoredBy Decode.model :=
  AreIgnoredBy.record
    (((areIgnoredBy_required_whole ⟨rfl, rfl⟩).map _).seq
      (areIgnoredBy_optional ⟨rfl, rfl⟩ isIgnoredBy_modelField.list)) _

theorem isIgnoredBy_aggregateSupport :
    aggregateSupport.IsIgnoredBy Decode.aggregateSupport :=
  AreIgnoredBy.record
    ((((((areIgnoredBy_optional_whole ⟨rfl, rfl⟩).map _).seq
      (areIgnoredBy_optional_whole ⟨rfl, rfl⟩)).seq
      (areIgnoredBy_optional_whole ⟨rfl, rfl⟩)).seq
      (areIgnoredBy_optional_whole ⟨rfl, rfl⟩)).seq
      (areIgnoredBy_optional_whole ⟨rfl, rfl⟩)) _

/-! Enumerations -/

/-- What is read as a whole under a key stays the same. -/
theorem get?_of_widens_whole
    {entries wider : Mapping}
    (widens : (record fields).Widens (.mapping entries) (.mapping wider))
    {key : String}
    (known : part? fields key = some .whole) :
    wider.get? key = entries.get? key := by
  have found := get?_of_widens widens known
  generalize entries.get? key = own, wider.get? key = widerOwn at found ⊢
  cases found with
  | some alike =>
      exact congrArg some ((isIgnoredBy_whole id).of_alike alike)
  | none =>
      rfl

theorem isIgnoredBy_flattenValue? :
    enumValue.IsIgnoredBy flattenValue? := by
  intro old wider widens
  cases widens with
  | here unknown new value =>
      exact get?_of_widens_whole (.here unknown new value) rfl
  | under known widens front behind =>
      exact get?_of_widens_whole (.under known widens front behind) rfl

theorem isIgnoredBy_enumValues :
    (list enumValue).IsIgnoredBy enumValues := by
  refine isIgnoredBy_of_items fun items wider alike => ?_
  rw [enumValues, enumValues, flattenValues, flattenValues,
    mapM_of_forall₂ isIgnoredBy_flattenValue? alike]

theorem isIgnoredBy_enumType :
    enumType.IsIgnoredBy Decode.enumType :=
  AreIgnoredBy.record
    (((areIgnoredBy_required_whole ⟨rfl, rfl⟩).map _).seq
      (areIgnoredBy_required ⟨rfl, rfl⟩ isIgnoredBy_enumValues)) _

/-! Operation mappings -/

/-- The names that stand for operations. -/
def operationKeys : List String :=
  Operation.all.map Operation.label ++ Operation.aliases.map Prod.fst ++ Operation.rawNames

/-- The keys that count in an operation mapping, in which operations may be keys. -/
def mappingKeys : List FieldName :=
  [.single "model", .single "operations", ⟨"rawOperations", "raw_operations"⟩, .single "plural"]
    ++ operationKeys.map .single

def operationMapping : Format :=
  .record (wholes mappingKeys)

/-! Sections -/

/-- Types by their origin, or in one list. -/
def listing (item : Format) : Format :=
  .either (.list item) (.record [(.single "prisma", .list item), (.single "model", .list item)])

def datasource : Format :=
  .record [(.single "provider", .whole)]

def datamodel : Format :=
  .record [(.single "models", .list model), (.single "enums", .list enumType)]

def schema : Format :=
  .record [(.single "inputObjectTypes", listing composite), (.single "enumTypes", listing enumType)]

def mappings : Format :=
  .record [(.single "modelOperations", .list operationMapping)]

/-- The keys that count in a metadata section. -/
def metadataFields : List (FieldName × Format) :=
  [(.single "provider", .whole),
    (⟨"previewFeatures", "preview_features"⟩, .whole),
    (.single "models", .list model),
    (.single "enums", .list enumType),
    (⟨"inputObjectTypes", "input_object_types"⟩, .list composite),
    (⟨"modelOperations", "model_operations"⟩, .list operationMapping),
    (⟨"aggregateSupport", "aggregate_support"⟩, .dictionary aggregateSupport),
    (.single "datasource", datasource),
    (.single "datamodel", datamodel),
    (.single "schema", schema),
    (.single "mappings", mappings)]

theorem part?_wholes_eq_none_iff
    {names : List FieldName}
    {key : String} :
    part? (wholes names) key = none ↔ ∀ name ∈ names, name.document ≠ key ∧ name.plain ≠ key := by
  simp [part?, wholes]

theorem eq_whole_of_part?_wholes
    {names : List FieldName}
    {key : String}
    {part : Format}
    (known : part? (wholes names) key = some part) :
    part = .whole := by
  obtain ⟨field, found, rfl⟩ := Option.map_eq_some_iff.mp known
  obtain ⟨name, -, rfl⟩ := List.mem_map.mp (List.mem_of_find?_eq_some found)
  rfl

/-- In an object whose fields are read as a whole, a new key is all that is added. -/
theorem cases_of_widens_wholes
    {names : List FieldName}
    {old wider : Value}
    (widens : (record (wholes names)).Widens old wider) :
    ∃ front behind key value, (∀ name ∈ names, name.document ≠ key ∧ name.plain ≠ key) ∧
      old = .mapping (front ++ behind) ∧
      wider = .mapping (front ++ (.text key, value) :: behind) := by
  cases widens with
  | here unknown new value =>
      exact ⟨_, _, _, value, part?_wholes_eq_none_iff.mp unknown, rfl, rfl⟩
  | under known widens front behind =>
      obtain rfl := eq_whole_of_part?_wholes known
      cases widens

end Decode.Format

namespace Source

open Decode Decode.Format

variable {key : String}

theorem canonical?_eq_none
    (unknown : key ∉ operationKeys) :
    Operation.canonical? key = none := by
  simp only [operationKeys, List.mem_append, not_or] at unknown
  obtain ⟨⟨noLabel, noAlias⟩, -⟩ := unknown
  have notListed : Operation.aliases.lookup key = none := by
    rw [List.lookup_eq_none_iff]
    intro entry member
    rw [bne_iff_ne]
    exact fun same => noAlias (List.mem_map.mpr ⟨entry, member, same.symm⟩)
  have notNamed : Operation.ofLabel? key = none := by
    rw [Operation.ofLabel?, List.find?_eq_none]
    intro operation member same
    exact noLabel (List.mem_map.mpr ⟨operation, member, eq_of_beq same⟩)
  rw [Operation.canonical?, notListed]
  exact notNamed

theorem isRawName_eq_false
    (unknown : key ∉ operationKeys) :
    isRawName (.text key) = false := by
  change Operation.rawNames.contains key = false
  rw [← Bool.not_eq_true, List.contains_iff_mem]
  exact fun isRaw => unknown (List.mem_append_right _ isRaw)

/-- The operations among some names. -/
def namedOperations (names : List Value) : Except Fault (List Operation) := do
  let operations ← (names.filter (!isRawName ·)).mapM canonicalOperation?
  .ok (operations.filterMap id)

/-- A name that stands for no operation may stand anywhere. -/
theorem namedOperations_of_unknown
    (unknown : key ∉ operationKeys)
    (front behind : List Value) :
    namedOperations (front ++ .text key :: behind) = namedOperations (front ++ behind) := by
  have noOperation : canonicalOperation? (.text key) = .ok none :=
    congrArg Except.ok (canonical?_eq_none unknown)
  simp only [namedOperations, List.filter_append, List.filter_cons, isRawName_eq_false unknown,
    Bool.not_false, if_true, List.mapM_append, List.mapM_cons, noOperation]
  cases (front.filter (!isRawName ·)).mapM canonicalOperation? with
  | error fault =>
      rfl
  | ok first =>
      cases (behind.filter (!isRawName ·)).mapM canonicalOperation? with
      | error fault =>
          rfl
      | ok second =>
          change Except.ok ((first ++ none :: second).filterMap id) =
            .ok ((first ++ second).filterMap id)
          simp

theorem filter_isRawName_of_unknown
    (unknown : key ∉ operationKeys)
    (front behind : List Value) :
    (front ++ .text key :: behind).filter isRawName = (front ++ behind).filter isRawName := by
  simp [isRawName_eq_false unknown]

/-- The operations that a mapping has as keys. -/
def keyNames (mapping : Mapping) : List Value :=
  (mapping.filter fun entry =>
    !(reservedKeys.any fun key => entry.1.same (.text key)) && !entry.2.isVacant).map
      fun entry => .scalar entry.1

theorem canonicalMapping_eq
    (entries : Mapping) :
    canonicalMapping (.mapping entries) = (do
      let listedRaw ← listedRawOperations entries
      let listed ← parts (Value.orElse (entries.get? "operations") fun _ => .list [])
      let operations ← namedOperations (listed ++ keyNames entries)
      let raw ← withoutRepetitions []
        (listedRaw ++ (listed ++ keyNames entries).filter isRawName)
      .ok (.object [("model", (entries.get? "model").getD .null),
        ("operations", .texts (operations.map Operation.label)),
        ("rawOperations", .list raw)])) := by
  simp only [canonicalMapping, operationNames, namedOperations, bind_assoc]
  rfl

/-- A key that is new is one of the names, or does not count because its value does not. -/
theorem keyNames_of_new
    (front behind : Mapping)
    (value : Value) :
    keyNames (front ++ (.text key, value) :: behind) = keyNames (front ++ behind) ∨
      ∃ names others, keyNames (front ++ behind) = names ++ others ∧
        keyNames (front ++ (.text key, value) :: behind) = names ++ .text key :: others := by
  unfold keyNames
  rw [List.filter_append, List.filter_append, List.filter_cons]
  split
  · refine .inr ⟨_, _, List.map_append, ?_⟩
    rw [List.map_append, List.map_cons]
    rfl
  · exact .inl rfl

/-- A key that stands for no operation does not change the canonical form of a mapping. -/
theorem isIgnoredBy_canonicalMapping :
    operationMapping.IsIgnoredBy canonicalMapping := by
  intro old wider widens
  obtain ⟨front, behind, key, value, unknown, rfl, rfl⟩ := cases_of_widens_wholes widens
  have noOperation : key ∉ operationKeys := fun isOperation =>
    (unknown (.single key) (List.mem_append_right _ (List.mem_map_of_mem isOperation))).1 rfl
  have same (name : String)
      (known : part? (wholes mappingKeys) name = some .whole) :
      Mapping.get? (front ++ (.text key, value) :: behind) name =
        Mapping.get? (front ++ behind) name :=
    get?_of_widens_whole widens known
  have sameRaw :
      listedRawOperations (front ++ (.text key, value) :: behind) =
        listedRawOperations (front ++ behind) := by
    rw [listedRawOperations, listedRawOperations, same "rawOperations" rfl,
      same "raw_operations" rfl]
  rw [canonicalMapping_eq, canonicalMapping_eq, sameRaw, same "operations" rfl, same "model" rfl]
  -- Where the key counts as a name, that name stands for no operation and is dropped.
  rcases keyNames_of_new front behind value with sameNames | ⟨names, others, areNames, withKey⟩
  · rw [sameNames]
  · rw [areNames, withKey]
    simp only [← List.append_assoc, namedOperations_of_unknown noOperation,
      filter_isRawName_of_unknown noOperation]

/-! Widened sections -/

section Values

variable {fields : List (FieldName × Format)} {part item : Format}

/-- Two values are the same, or lists of items that are alike. -/
inductive ListedAlike (item : Format) : Value → Value → Prop where
  | same (value : Value) :
      ListedAlike item value value
  | listed
      {items wider : List Value}
      (alike : List.Forall₂ item.Alike items wider) :
      ListedAlike item (.list items) (.list wider)

theorem listedAlike_of_alike
    {old wider : Value}
    (alike : (Format.list item).Alike old wider) :
    ListedAlike item old wider := by
  cases alike with
  | refl =>
      exact .same old
  | single widens =>
      cases widens with
      | item widens front behind =>
          obtain ⟨_, ⟨⟩, alike⟩ := exists_items_of_alike (.single (.item widens front behind))
          exact .listed alike

theorem exists_parts_of_listedAlike
    {old wider : Value}
    (alike : ListedAlike item old wider)
    {items : List Value}
    (areItems : parts old = .ok items) :
    ∃ widerItems, parts wider = .ok widerItems ∧ List.Forall₂ item.Alike items widerItems := by
  cases alike with
  | same =>
      exact ⟨items, areItems, List.forall₂_same.mpr fun _ _ => .refl⟩
  | listed alike =>
      cases areItems
      exact ⟨_, rfl, alike⟩

theorem list_of_listedAlike
    {decode : Value → Decoded α}
    (ignored : item.IsIgnoredBy decode)
    {old wider : Value}
    (alike : ListedAlike item old wider) :
    Decode.list decode wider = Decode.list decode old := by
  cases alike with
  | same =>
      rfl
  | listed alike =>
      exact list_of_forall₂ ignored alike

theorem get?_of_alike
    {entries wider : Mapping}
    (alike : (Format.record fields).Alike (.mapping entries) (.mapping wider))
    {key : String}
    (known : part? fields key = some part) :
    Option.Rel part.Alike (entries.get? key) (wider.get? key) := by
  cases alike with
  | refl =>
      exact optionRel_refl part _
  | single widens =>
      exact get?_of_widens widens known

theorem listAt_of_alike
    {entries wider : Mapping}
    (alike : (Format.record fields).Alike (.mapping entries) (.mapping wider))
    {key : String}
    (known : part? fields key = some (.list item)) :
    (Format.list item).Alike (listAt entries key) (listAt wider key) := by
  have found := get?_of_alike alike known
  unfold listAt
  generalize entries.get? key = own, wider.get? key = widerOwn at found ⊢
  cases found with
  | some alike =>
      exact alike
  | none =>
      exact .refl

/-- A widened object is an object. -/
theorem exists_entries_of_widens
    {old wider : Value}
    (widens : (Format.record fields).Widens old wider) :
    ∃ entries widerEntries, old = .mapping entries ∧ wider = .mapping widerEntries := by
  cases widens with
  | here unknown new value =>
      exact ⟨_, _, rfl, rfl⟩
  | under known widens front behind =>
      exact ⟨_, _, rfl, rfl⟩

theorem exists_byOrigin_of_widens
    {old wider : Value}
    (widens : (listing item).Widens old wider)
    {types : Value}
    (areTypes : byOrigin old = .ok types) :
    ∃ widerTypes, byOrigin wider = .ok widerTypes ∧ ListedAlike item types widerTypes := by
  cases widens with
  | first widens second =>
      cases widens with
      | item widens front behind =>
          cases areTypes
          exact ⟨_, rfl, listedAlike_of_alike (.single (.item widens front behind))⟩
  | second widens first =>
      obtain ⟨entries, widerEntries, rfl, rfl⟩ := exists_entries_of_widens widens
      simp only [byOrigin, bind_eq_ok_iff] at areTypes ⊢
      obtain ⟨host, isHost, own, isOwn, ⟨⟩⟩ := areTypes
      have atHost : (Format.list item).Alike (listAt entries "prisma")
          (listAt widerEntries "prisma") :=
        listAt_of_alike (.single widens) rfl
      have atOwn : (Format.list item).Alike (listAt entries "model")
          (listAt widerEntries "model") :=
        listAt_of_alike (.single widens) rfl
      obtain ⟨widerHost, isWiderHost, hostAlike⟩ :=
        exists_parts_of_listedAlike (listedAlike_of_alike atHost) isHost
      obtain ⟨widerOwn, isWiderOwn, ownAlike⟩ :=
        exists_parts_of_listedAlike (listedAlike_of_alike atOwn) isOwn
      exact ⟨_, ⟨widerHost, isWiderHost, widerOwn, isWiderOwn, rfl⟩,
        .listed (List.rel_append hostAlike ownAlike)⟩

theorem exists_typesAt_of_alike
    {entries wider : Mapping}
    (alike : (Format.record fields).Alike (.mapping entries) (.mapping wider))
    {key : String}
    (known : part? fields key = some (listing item))
    {types : Value}
    (areTypes : typesAt entries key = .ok types) :
    ∃ widerTypes, typesAt wider key = .ok widerTypes ∧ ListedAlike item types widerTypes := by
  have found := get?_of_alike alike known
  unfold typesAt at areTypes ⊢
  generalize entries.get? key = own, wider.get? key = widerOwn at found areTypes ⊢
  cases found with
  | some alike =>
      cases alike with
      | refl =>
          exact ⟨types, areTypes, .same types⟩
      | single widens =>
          exact exists_byOrigin_of_widens widens areTypes
  | none =>
      exact ⟨types, areTypes, .same types⟩

end Values

section Metadata

variable {data wider : Mapping}

/-- The entries of a nested section are widened at most, and it stays there or absent. -/
theorem nested?_of_widens
    (widens : (Format.record metadataFields).Widens (.mapping data) (.mapping wider))
    {fields : List (FieldName × Format)}
    (key : String)
    (known : part? metadataFields key = some (.record fields)) :
    Option.Rel (fun entries widerEntries =>
        (Format.record fields).Alike (.mapping entries) (.mapping widerEntries))
      (nested? data key) (nested? wider key) := by
  have found := get?_of_widens widens known
  unfold nested?
  generalize data.get? key = own, wider.get? key = widerOwn at found ⊢
  cases found with
  | some alike =>
      rename_i old widerValue
      change Option.Rel _ old.entries? widerValue.entries?
      cases alike with
      | refl =>
          cases old.entries? with
          | none =>
              exact .none
          | some entries =>
              exact .some .refl
      | single widens =>
          obtain ⟨entries, widerEntries, rfl, rfl⟩ := exists_entries_of_widens widens
          exact .some (.single widens)
  | none =>
      exact .none

/-- Values that a reading does not tell apart. -/
abbrev ReadAlikeBy (read : Value → β) : Option Value → Option Value → Prop :=
  Option.Rel fun old wider => read wider = read old

theorem readAlikeBy_of_ignored
    {format : Format}
    {read : Value → β}
    (ignored : format.IsIgnoredBy read)
    {own widerOwn : Option Value}
    (alike : Option.Rel format.Alike own widerOwn) :
    ReadAlikeBy read own widerOwn := by
  cases alike with
  | none =>
      exact .none
  | some alike =>
      exact .some (ignored.of_alike alike)

theorem readsOr_of_readAlikeBy
    {decode : Value → Decoded α}
    {absent result : α}
    {own widerOwn : Option Value}
    (alike : ReadAlikeBy decode own widerOwn)
    (reads : ReadsOr decode absent result own) :
    ReadsOr decode absent result widerOwn := by
  cases alike with
  | none =>
      exact reads
  | some same =>
      exact same.trans reads

variable (widens : (Format.record metadataFields).Widens (.mapping data) (.mapping wider))

include widens

theorem nestedProvider?_of_widens :
    Option.Rel Format.whole.Alike (nestedProvider? data) (nestedProvider? wider) := by
  have found := nested?_of_widens widens "datasource" rfl
  unfold nestedProvider?
  generalize nested? data "datasource" = own, nested? wider "datasource" = widerOwn at found ⊢
  cases found with
  | some alike =>
      exact get?_of_alike alike rfl
  | none =>
      exact .none

theorem nestedModels?_of_widens :
    Option.Rel (Format.list model).Alike (nestedModels? data) (nestedModels? wider) := by
  unfold nestedModels?
  exact optionRel_map (nested?_of_widens widens "datamodel" rfl) fun _ _ alike =>
    listAt_of_alike alike rfl

theorem nestedMappings?_of_widens :
    Option.Rel (Format.list operationMapping).Alike (nestedMappings? data)
      (nestedMappings? wider) := by
  unfold nestedMappings?
  exact optionRel_map (nested?_of_widens widens "mappings" rfl) fun _ _ alike =>
    listAt_of_alike alike rfl

theorem exists_nestedComposites?
    {nested : Option Value}
    (isNested : nestedComposites? data = .ok nested) :
    ∃ widerNested, nestedComposites? wider = .ok widerNested ∧
      Option.Rel (ListedAlike composite) nested widerNested := by
  have found := nested?_of_widens widens "schema" rfl
  unfold nestedComposites? at isNested ⊢
  generalize nested? data "schema" = own, nested? wider "schema" = widerOwn at found isNested ⊢
  cases found with
  | some alike =>
      dsimp only at isNested ⊢
      obtain ⟨types, areTypes, rfl⟩ := exceptMap_eq_ok_iff.mp isNested
      obtain ⟨widerTypes, areWider, listed⟩ := exists_typesAt_of_alike alike rfl areTypes
      exact ⟨some widerTypes, exceptMap_eq_ok_iff.mpr ⟨_, areWider, rfl⟩, .some listed⟩
  | none =>
      cases isNested
      exact ⟨none, rfl, .none⟩

theorem exists_modelEnums
    {items : List Value}
    (areItems : modelEnums data = .ok items) :
    ∃ widerItems, modelEnums wider = .ok widerItems ∧
      List.Forall₂ enumType.Alike items widerItems := by
  have found := nested?_of_widens widens "datamodel" rfl
  unfold modelEnums at areItems ⊢
  generalize nested? data "datamodel" = own,
    nested? wider "datamodel" = widerOwn at found areItems ⊢
  cases found with
  | some alike =>
      exact exists_parts_of_listedAlike (listedAlike_of_alike (listAt_of_alike alike rfl)) areItems
  | none =>
      cases areItems
      exact ⟨[], rfl, .nil⟩

theorem exists_typeEnums
    {items : List Value}
    (areItems : typeEnums data = .ok items) :
    ∃ widerItems, typeEnums wider = .ok widerItems ∧
      List.Forall₂ enumType.Alike items widerItems := by
  have found := nested?_of_widens widens "schema" rfl
  unfold typeEnums at areItems ⊢
  generalize nested? data "schema" = own, nested? wider "schema" = widerOwn at found areItems ⊢
  cases found with
  | some alike =>
      obtain ⟨types, areTypes, areParts⟩ := bind_eq_ok_iff.mp areItems
      obtain ⟨widerTypes, areWider, listed⟩ := exists_typesAt_of_alike alike rfl areTypes
      obtain ⟨widerItems, areWiderParts, itemsAlike⟩ := exists_parts_of_listedAlike listed areParts
      exact ⟨widerItems, bind_eq_ok_iff.mpr ⟨widerTypes, areWider, areWiderParts⟩, itemsAlike⟩
  | none =>
      cases areItems
      exact ⟨[], rfl, .nil⟩

theorem exists_enumItems
    {items : List Value}
    (areItems : enumItems data = .ok items) :
    ∃ widerItems, enumItems wider = .ok widerItems ∧
      List.Forall₂ enumType.Alike items widerItems := by
  obtain ⟨own, ofModels, ofTypes, areOwn, areOfModels, areOfTypes, rfl⟩ :=
    enumItems_eq_ok_iff.mp areItems
  have atOwn : (Format.list enumType).Alike (listAt data "enums") (listAt wider "enums") :=
    listAt_of_alike (.single widens) rfl
  obtain ⟨widerOwn, areWiderOwn, ownAlike⟩ :=
    exists_parts_of_listedAlike (listedAlike_of_alike atOwn) areOwn
  obtain ⟨widerOfModels, areWiderOfModels, modelsAlike⟩ := exists_modelEnums widens areOfModels
  obtain ⟨widerOfTypes, areWiderOfTypes, typesAlike⟩ := exists_typeEnums widens areOfTypes
  exact ⟨_, enumItems_eq_ok_iff.mpr
    ⟨_, _, _, areWiderOwn, areWiderOfModels, areWiderOfTypes, rfl⟩,
    List.rel_append (List.rel_append ownAlike modelsAlike) typesAlike⟩

omit widens

theorem isIgnoredBy_nameOf :
    enumType.IsIgnoredBy nameOf := by
  intro old widerItem widens
  obtain ⟨entries, widerEntries, rfl, rfl⟩ := exists_entries_of_widens widens
  have sameName : Mapping.get? widerEntries "name" = Mapping.get? entries "name" :=
    get?_of_widens_whole widens rfl
  change Except.ok ((Mapping.get? widerEntries "name").getD .null) = _
  rw [sameName]
  rfl

/-- The first enumeration of each name is kept, widened or not. -/
theorem exists_keepFirst_of_alike
    {items widerItems : List Value}
    (alike : List.Forall₂ enumType.Alike items widerItems)
    {seen kept : List Value}
    (isKept : keepFirst nameOf seen items = .ok kept) :
    ∃ widerKept, keepFirst nameOf seen widerItems = .ok widerKept ∧
      List.Forall₂ enumType.Alike kept widerKept := by
  induction alike generalizing seen kept with
  | nil =>
      cases isKept
      exact ⟨[], rfl, .nil⟩
  | cons atItem _ inductionHypothesis =>
      have sameName := isIgnoredBy_nameOf.of_alike atItem
      obtain ⟨key, isKey, isFixed, ⟨isSeen, inRest⟩ | ⟨unseen, others, areOthers, rfl⟩⟩ :=
        keepFirst_cons_eq_ok_iff.mp isKept
      · obtain ⟨widerKept, isWiderKept, keptAlike⟩ := inductionHypothesis inRest
        exact ⟨widerKept, keepFirst_cons_eq_ok_iff.mpr
          ⟨key, sameName.trans isKey, isFixed, .inl ⟨isSeen, isWiderKept⟩⟩, keptAlike⟩
      · obtain ⟨widerOthers, areWiderOthers, othersAlike⟩ := inductionHypothesis areOthers
        exact ⟨_, keepFirst_cons_eq_ok_iff.mpr
          ⟨key, sameName.trans isKey, isFixed, .inr ⟨unseen, widerOthers, areWiderOthers, rfl⟩⟩,
          .cons atItem othersAlike⟩

theorem readsMappings_of_alike
    {mappings : List OperationMapping}
    {own widerOwn : Option Value}
    (alike : Option.Rel (Format.list operationMapping).Alike own widerOwn)
    (reads : ReadsMappings mappings own) :
    ReadsMappings mappings widerOwn := by
  cases alike with
  | none =>
      exact reads
  | some alike =>
      cases reads with
      | null nothing =>
          cases alike with
          | refl =>
              exact .null nothing
          | single widens =>
              exact absurd rfl (ne_null_of_widens widens).1
      | listed areItems areCanonical areRead =>
          obtain ⟨widerItems, areWiderItems, itemsAlike⟩ :=
            exists_parts_of_listedAlike (listedAlike_of_alike alike) areItems
          rw [← mapM_of_forall₂ isIgnoredBy_canonicalMapping itemsAlike] at areCanonical
          exact .listed areWiderItems areCanonical areRead

include widens

theorem readsEnums_of_widens
    {enums : List EnumType}
    (reads : ReadsEnums data enums) :
    ReadsEnums wider enums := by
  obtain ⟨items, kept, areItems, areKept, areRead⟩ := reads
  obtain ⟨widerItems, areWiderItems, itemsAlike⟩ := exists_enumItems widens areItems
  rw [firstByName_eq_keepFirst] at areKept
  obtain ⟨widerKept, areWiderKept, keptAlike⟩ := exists_keepFirst_of_alike itemsAlike areKept
  rw [← firstByName_eq_keepFirst] at areWiderKept
  exact ⟨widerItems, widerKept, areWiderItems, areWiderKept,
    (list_of_forall₂ isIgnoredBy_enumType keptAlike).trans areRead⟩

/-- A widened section is read as the same document. -/
theorem isReadAs_of_widens
    {document : Document}
    (reads : IsReadAs data document) :
    IsReadAs wider document := by
  have atKey {part : Format} (key : String) (known : part? metadataFields key = some part) :
      Option.Rel part.Alike (data.get? key) (wider.get? key) :=
    get?_of_widens widens known
  constructor
  case provider =>
    refine readsOr_of_readAlikeBy (readAlikeBy_of_ignored (isIgnoredBy_whole _) ?_) reads.provider
    exact optionRel_or (atKey "provider" rfl) (nestedProvider?_of_widens widens)
  case previewFeatures =>
    refine readsOr_of_readAlikeBy (readAlikeBy_of_ignored (isIgnoredBy_whole _) ?_)
      reads.previewFeatures
    exact optionRel_or (atKey "previewFeatures" rfl) (atKey "preview_features" rfl)
  case models =>
    refine readsOr_of_readAlikeBy (readAlikeBy_of_ignored isIgnoredBy_model.list ?_) reads.models
    exact optionRel_or (atKey "models" rfl) (nestedModels?_of_widens widens)
  case enums =>
    exact readsEnums_of_widens widens reads.enums
  case composites =>
    obtain ⟨nested, isNested, areRead⟩ := reads.composites
    obtain ⟨widerNested, isWiderNested, listed⟩ := exists_nestedComposites? widens isNested
    have nestedAlike : ReadAlikeBy (Decode.list Decode.composite) nested widerNested := by
      cases listed with
      | none =>
          exact .none
      | some listed =>
          exact .some (list_of_listedAlike isIgnoredBy_composite listed)
    have ownAlike {key : String} (known : part? metadataFields key = some (.list composite)) :
        ReadAlikeBy (Decode.list Decode.composite) (data.get? key) (wider.get? key) :=
      readAlikeBy_of_ignored isIgnoredBy_composite.list (atKey key known)
    refine ⟨widerNested, isWiderNested, readsOr_of_readAlikeBy ?_ areRead⟩
    exact optionRel_or (optionRel_or (ownAlike rfl) nestedAlike) (ownAlike rfl)
  case mappings =>
    refine readsMappings_of_alike ?_ reads.mappings
    exact optionRel_or (optionRel_or (atKey "modelOperations" rfl)
      (nestedMappings?_of_widens widens)) (atKey "model_operations" rfl)
  case aggregateSupport =>
    refine readsOr_of_readAlikeBy
      (readAlikeBy_of_ignored isIgnoredBy_aggregateSupport.dictionary.orNull ?_)
      reads.aggregateSupport
    exact optionRel_or (atKey "aggregateSupport" rfl) (atKey "aggregate_support" rfl)
  case namesApart =>
    exact reads.namesApart

end Metadata

/-- A key that a section does not recognise, in itself or in one of its parts, changes neither the
document nor the settings that are read. -/
theorem parse_of_widened
    {raw data wider : Mapping}
    (isSection : nested? raw "metadata" = some data)
    (widens : (Format.record metadataFields).Widens (.mapping data) (.mapping wider))
    {parsed : Parsed}
    (isParsed : parse raw = .ok parsed) :
    parse (raw.put "metadata" (.mapping wider)) = .ok parsed := by
  obtain ⟨section_, isMetadata, reads, areSettings⟩ := parse_eq_ok_iff_isReadAs.mp isParsed
  obtain rfl : data = section_ := by
    rw [metadataSection?, isSection] at isMetadata
    exact Option.some.inj isMetadata
  refine parse_eq_ok_iff_isReadAs.mpr ⟨wider, ?_, isReadAs_of_widens widens reads, ?_⟩
  · rw [metadataSection?, nested?, get?_put, if_pos rfl]
    rfl
  · rw [settingsSection, get?_put, if_neg (by decide)]
    exact areSettings

/-- An operation mapping that has an operation as a key. -/
def mappedOperation : Mapping :=
  [(.text "model", .text "User"), (.text "findMany", .text "findManyUser")]

/-- A document with one model and a mapping of its operations. -/
def mappedSource (mapping : Mapping) : Mapping :=
  [(.text "metadata", .mapping [(.text "models", .list [.object [("name", .text "User")]]),
    (.text "modelOperations", .list [.mapping mapping])])]

/-- In an operation mapping a key that stands for no operation may be added. -/
theorem parse_of_widened_mappedSource :
    ∃ parsed,
      parse (mappedSource mappedOperation) = .ok parsed ∧
        parse (mappedSource (mappedOperation ++ [(.text "watchMany", .text "watchManyUser")])) =
          .ok parsed ∧
        parsed.document.mappings.map (·.operations) = [[.findMany]] := by
  have isParsed :
      (parse (mappedSource mappedOperation)).toOption.map
        (·.document.mappings.map (·.operations)) = some [[.findMany]] := by
    decide +kernel
  obtain ⟨parsed, isResult, operations⟩ := Option.map_eq_some_iff.mp isParsed
  have isRead := eq_ok_of_toOption isResult
  have unknown : part? (wholes mappingKeys) "watchMany" = none := by
    rfl
  have atMapping : operationMapping.Widens (.mapping (mappedOperation ++ []))
      (.mapping (mappedOperation ++ [(.text "watchMany", .text "watchManyUser")])) :=
    .here unknown rfl (.text "watchManyUser")
  have atList := Widens.item atMapping [] []
  have inMetadata : part? metadataFields "modelOperations" = some (.list operationMapping) :=
    rfl
  have widens := Widens.under inMetadata atList
    [(.text "models", .list [.object [("name", .text "User")]])] []
  exact ⟨parsed, isRead, parse_of_widened rfl widens isRead, operations⟩

end Source

end ZodSchemas
