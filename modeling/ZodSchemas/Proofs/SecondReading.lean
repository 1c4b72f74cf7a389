import ZodSchemas.Proofs.FirstReading

namespace ZodSchemas.Source

/-!
# Reading what has been written again

The written form of a document is in the flat layout already: it has none of the
nested sections, no enumeration of it is left out, and its mappings are in their
canonical form.  Only the mappings change their place among the entries.  Each
field is then reread, and so are the settings.
-/

open Data
open Metadata
open Decode
open Decode.Decoded

/-- The written form of stated aggregate support; nothing is written as null. -/
def supportValue : Option (List (String × AggregateSupport)) → Value
  | some table => Encode.supportTable table
  | none => .null

/-- The entries of the written form of a document. -/
def writtenEntries (document : Document) : List (String × Value) :=
  [("provider", .text document.provider.label),
    ("previewFeatures", .texts document.previewFeatures),
    ("models", .list (document.models.map Encode.model)),
    ("enums", .list (document.enums.map Encode.enumType)),
    ("inputObjectTypes", .list (document.composites.map Encode.composite)),
    ("modelOperations", .list (document.mappings.map Encode.operationMapping)),
    ("aggregateSupport", supportValue document.aggregateSupport),
    ("enumNames", .texts document.enumNames)]

/-- The written entries with the mappings at the end, where flattening puts them. -/
def flatEntries (document : Document) : List (String × Value) :=
  (writtenEntries document).filter (fun entry => entry.1 != "modelOperations") ++
    [("modelOperations", .list (document.mappings.map Encode.operationMapping))]

theorem document_eq_object
    (document : Document) :
    Encode.document document = .object (writtenEntries document) := by
  cases document with
  | mk provider features models enums composites mappings support =>
      cases support <;> rfl

theorem rereads_support :
    Rereads (orNull (dictionary Decode.aggregateSupport)) supportValue := by
  constructor
  intro value support accepted
  rcases orNull_eq_accepted accepted with rfl | ⟨table, isTable, rfl⟩
  · rfl
  · exact map_of_accepted ((rereads_dictionary rereads_aggregateSupport).again isTable) some

/-- A document is reread from its written entries in the order of the flat layout. -/
theorem document_flatEntries
    {value : Value}
    {document : Document}
    (accepted : Decode.document value = .accepted document) :
    Decode.document (.object (flatEntries document)) = .accepted document := by
  obtain ⟨inRecord, namesApart⟩ := check_eq_accepted_iff.mp accepted
  refine check_eq_accepted_iff.mpr ⟨?_, namesApart⟩
  obtain ⟨entries, -, fields⟩ := record_eq_accepted inRecord
  simp only [documentFields, seq_eq_accepted_iff, map_eq_accepted_iff] at fields
  obtain ⟨_, support, ⟨_, mappings, ⟨_, composites, ⟨_, enums, ⟨_, models, ⟨_, features,
    ⟨provider, inProvider, rfl⟩, inFeatures, rfl⟩, inModels, rfl⟩, inEnums, rfl⟩,
    inComposites, rfl⟩, inMappings, rfl⟩, inSupport, rfl⟩ := fields
  refine seq_of_accepted (seq_of_accepted (seq_of_accepted (seq_of_accepted (seq_of_accepted
    (seq_of_accepted (map_of_accepted ?_ _) ?_) ?_) ?_) ?_) ?_) ?_
  · exact (rereads_member _ _).optional rfl inProvider rfl
  · exact rereads_text.list.optional rfl inFeatures rfl
  · exact rereads_model.list.optional rfl inModels rfl
  · exact rereads_enumType.list.optional rfl inEnums rfl
  · exact rereads_composite.list.optional rfl inComposites rfl
  · exact rereads_operationMapping.list.optional rfl inMappings rfl
  · exact rereads_support.optional rfl inSupport rfl

theorem firstByName_enumTypes
    {enums : List EnumType}
    (apart : (enums.map (·.name)).Nodup) :
    firstByName [] (enums.map Encode.enumType) = .ok (enums.map Encode.enumType) := by
  rw [firstByName_eq_keepFirst]
  refine keepFirst_eq_self (fun enumType : EnumType => enumType.name) ?_ apart ?_
  · rw [List.forall₂_map_left_iff, List.forall₂_same]
    exact fun _ _ => rfl
  · exact fun _ _ => rfl

theorem withoutRepetitions_cons_text
    (seen : List String)
    (name : String)
    (rest : List Value) :
    withoutRepetitions (seen.map .text) (.text name :: rest) =
      if name ∈ seen then withoutRepetitions (seen.map .text) rest
      else (withoutRepetitions ((name :: seen).map .text) rest).map (.text name :: ·) := by
  have isSeen : (seen.map Value.text).any (Value.text name).same = decide (name ∈ seen) := by
    rw [Bool.eq_iff_iff]
    simp
  rw [withoutRepetitions, isSeen]
  by_cases inSeen : name ∈ seen
  · rw [if_pos inSeen, decide_eq_true inSeen]
    rfl
  · rw [if_neg inSeen, decide_eq_false inSeen]
    rfl

/-- Of texts the first occurrences remain, unless they have been seen before. -/
theorem withoutRepetitions_map_text
    (seen names : List String) :
    withoutRepetitions (seen.map .text) (names.map .text) =
      .ok (((distinct names).filter (· ∉ seen)).map .text) := by
  induction names generalizing seen with
  | nil =>
      rfl
  | cons name rest inductionHypothesis =>
      rw [List.map_cons, withoutRepetitions_cons_text, inductionHypothesis, inductionHypothesis,
        distinct]
      by_cases inSeen : name ∈ seen
      · have sameRest :
            (name :: (distinct rest).filter (· ≠ name)).filter (· ∉ seen) =
              (distinct rest).filter (· ∉ seen) := by
          rw [List.filter_cons_of_neg (by simpa using inSeen), List.filter_filter]
          refine List.filter_congr fun other _ => ?_
          by_cases isName : other = name <;> simp [isName, inSeen]
        rw [if_pos inSeen, sameRest]
      · have sameRest :
            (name :: (distinct rest).filter (· ≠ name)).filter (· ∉ seen) =
              name :: (distinct rest).filter (· ∉ name :: seen) := by
          rw [List.filter_cons_of_pos (by simpa using inSeen), List.filter_filter]
          congr 1
          refine List.filter_congr fun other _ => ?_
          simp [Bool.and_comm]
        rw [if_neg inSeen, sameRest]
        rfl

theorem withoutRepetitions_texts
    {names : List String}
    (apart : names.Nodup) :
    withoutRepetitions [] (names.map .text) = .ok (names.map .text) := by
  simpa [distinct_eq_self apart] using withoutRepetitions_map_text [] names

/-- A list of texts is taken apart into its texts, also where an empty one counts as absent. -/
theorem parts_orElse_texts
    (names : List String)
    {other : Unit → Value}
    (otherwise : parts (other ()) = .ok []) :
    parts (Value.orElse (some (.texts names)) other) = .ok (names.map .text) := by
  cases names with
  | nil =>
      exact otherwise
  | cons =>
      rfl

theorem canonical?_label
    (operation : Operation) :
    Operation.canonical? operation.label = some operation := by
  cases operation <;> rfl

theorem isRawName_label
    (operation : Operation) :
    isRawName (.text operation.label) = false := by
  cases operation <;> rfl

/-- Labels are read as their operations, and none of them is the name of a raw one. -/
theorem canonicalOperations_labels
    (operations : List Operation) :
    (((operations.map Operation.label).map Value.text).filter (!isRawName ·)).mapM
      canonicalOperation? = .ok (operations.map some) := by
  have allRemain :
      ((operations.map Operation.label).map Value.text).filter (!isRawName ·) =
        (operations.map Operation.label).map Value.text := by
    simp [isRawName_label]
  rw [allRemain]
  simp only [mapM_eq_ok_iff, List.forall₂_map_left_iff, List.forall₂_map_right_iff,
    List.forall₂_same]
  exact fun operation _ => congrArg _ (canonical?_label operation)

section CanonicalForm

variable (model : Value) (operations : List Operation) (raw : List Value)

/-- The entries of an operation mapping in its canonical form. -/
def canonicalEntries : List (String × Value) :=
  [("model", model), ("operations", .texts (operations.map Operation.label)),
    ("rawOperations", .list raw)]

theorem listedRawOperations_canonicalEntries :
    listedRawOperations (named (canonicalEntries model operations raw)) = .ok raw := by
  cases raw <;> rfl

/-- All keys of a canonical form are reserved, so its operations are those that it lists. -/
theorem operationNames_canonicalEntries :
    operationNames (named (canonicalEntries model operations raw)) =
      .ok ((operations.map Operation.label).map .text) := by
  have reserved :
      (named (canonicalEntries model operations raw)).filter (fun entry =>
        !(reservedKeys.any fun key => entry.1.same (.text key)) && !entry.2.isVacant) = [] :=
    rfl
  simp only [operationNames, bind_eq_ok_iff]
  refine ⟨_, parts_orElse_texts (operations.map Operation.label) rfl, ?_⟩
  rw [reserved, List.map_nil, List.append_nil]

variable {raw}

/-- A canonical form is its own canonical form. -/
theorem canonicalMapping_canonicalEntries
    (apart : withoutRepetitions [] raw = .ok raw) :
    canonicalMapping (.object (canonicalEntries model operations raw)) =
      .ok (.object (canonicalEntries model operations raw)) := by
  have noneIsRaw :
      ((operations.map Operation.label).map Value.text).filter isRawName = [] := by
    simp [isRawName_label]
  have same : (operations.map some).filterMap id = operations := by
    simp
  simp only [canonicalMapping, bind_eq_ok_iff]
  refine ⟨named (canonicalEntries model operations raw), rfl,
    raw, listedRawOperations_canonicalEntries model operations raw,
    _, operationNames_canonicalEntries model operations raw,
    operations.map some, canonicalOperations_labels operations, raw, ?_, ?_⟩
  · rw [noneIsRaw, List.append_nil, apart]
  · rw [same]
    rfl

end CanonicalForm

theorem canonicalMapping_operationMapping
    {mapping : OperationMapping}
    (apart : mapping.rawOperations.Nodup) :
    canonicalMapping (Encode.operationMapping mapping) = .ok (Encode.operationMapping mapping) :=
  canonicalMapping_canonicalEntries (.text mapping.model) mapping.operations
    (withoutRepetitions_texts apart)

section Flattening

variable {document : Document}

theorem nested?_writtenEntries
    (document : Document)
    {key : String}
    (isNested : key ∈ nestedSections) :
    nested? (named (writtenEntries document)) key = none := by
  simp only [nestedSections, List.mem_cons, List.not_mem_nil, or_false] at isNested
  rcases isNested with rfl | rfl | rfl | rfl <;>
    rfl

theorem flatPart_writtenEntries
    (document : Document) :
    flatPart (named (writtenEntries document)) = named (writtenEntries document) :=
  rfl

theorem mergeEnums_writtenEntries
    (settled : IsSettled document) :
    mergeEnums (named (writtenEntries document)) = .ok (named (writtenEntries document)) := by
  have written :
      (named (writtenEntries document)).get? "enums" =
        some (.list (document.enums.map Encode.enumType)) :=
    rfl
  rw [mergeEnums, written]
  simp only [bind_eq_ok_iff]
  exact ⟨_, rfl, _, firstByName_enumTypes settled.enumsApart, rfl⟩

theorem canonicalMappings_writtenEntries
    (settled : IsSettled document) :
    canonicalMappings (named (writtenEntries document)) = .ok (named (flatEntries document)) := by
  have areCanonical :
      (document.mappings.map Encode.operationMapping).mapM canonicalMapping =
        .ok (document.mappings.map Encode.operationMapping) := by
    rw [mapM_eq_ok_iff, List.forall₂_same, List.forall_mem_map]
    exact fun mapping member => canonicalMapping_operationMapping (settled.rawApart mapping member)
  have written :
      ((named (writtenEntries document)).get? "modelOperations").or
        ((named (writtenEntries document)).get? "model_operations") =
        some (.list (document.mappings.map Encode.operationMapping)) :=
    rfl
  rw [canonicalMappings, written]
  simp only [bind_eq_ok_iff]
  exact ⟨_, rfl, _, areCanonical, rfl⟩

theorem flatten_writtenEntries
    (settled : IsSettled document) :
    flatten (named (writtenEntries document)) = .ok (named (flatEntries document)) := by
  have noSource := nested?_writtenEntries document (by decide : "datasource" ∈ nestedSections)
  have noModels := nested?_writtenEntries document (by decide : "datamodel" ∈ nestedSections)
  have noTypes := nested?_writtenEntries document (by decide : "schema" ∈ nestedSections)
  have noMappings := nested?_writtenEntries document (by decide : "mappings" ∈ nestedSections)
  simp only [flatten, flatPart_writtenEntries, liftProvider, liftModels, liftTypes, liftMappings,
    noSource, noModels, noTypes, noMappings, Option.bind_none, bind_eq_ok_iff]
  exact ⟨_, rfl, _, rfl, _, mergeEnums_writtenEntries settled,
    canonicalMappings_writtenEntries settled⟩

end Flattening

theorem accept_eq_ok_iff
    {fault : List Issue → Fault}
    {result : Decoded α}
    {value : α} :
    accept fault result = .ok value ↔ result = .accepted value := by
  cases result <;> simp [accept]

/-- A source document is parsed by flattening and reading its metadata section and by reading its
settings section. -/
theorem parseValue_eq_ok_iff
    {value : Value}
    {parsed : Parsed} :
    parseValue value = .ok parsed ↔
      ∃ raw data flat,
        entries value = .ok raw ∧ metadataSection? raw = some data ∧ flatten data = .ok flat ∧
          Decode.document (.mapping flat) = .accepted parsed.document ∧
          Decode.settings (settingsSection raw) = .accepted parsed.settings := by
  simp only [parseValue, bind_eq_ok_iff]
  constructor
  · rintro ⟨raw, areEntries, isParsed⟩
    unfold parse at isParsed
    split at isParsed
    · contradiction
    · rename_i data isSection
      simp only [parseMetadata, bind_eq_ok_iff, accept_eq_ok_iff] at isParsed
      obtain ⟨document, ⟨flat, isFlat, isDocument⟩, settings, areSettings, ⟨⟩⟩ := isParsed
      exact ⟨raw, data, flat, areEntries, isSection, isFlat, isDocument, areSettings⟩
  · rintro ⟨raw, data, flat, areEntries, isSection, isFlat, isDocument, areSettings⟩
    refine ⟨raw, areEntries, ?_⟩
    rw [parse, isSection]
    simp only [parseMetadata, bind_eq_ok_iff, accept_eq_ok_iff]
    exact ⟨_, ⟨flat, isFlat, isDocument⟩, _, areSettings, rfl⟩

theorem isJson_metadataSection
    {raw data : Mapping}
    (json : raw.IsJson)
    (isSection : metadataSection? raw = some data) :
    data.IsJson := by
  unfold metadataSection? at isSection
  split at isSection
  · rename_i isNested
    cases isSection
    exact isJson_of_nested json isNested
  · rename_i isNested
    cases isSection
    exact isJson_of_nested json isNested
  · split at isSection
    · cases isSection
      exact json
    · contradiction

/-- What a document and its settings are written as: a metadata section and a settings section. -/
def writtenSource (parsed : Parsed) : Value :=
  .object [("metadata", Encode.document parsed.document),
    ("config", Encode.settings parsed.settings)]

/-- Whatever a JSON document has been parsed as, it is parsed as the same again once that is
written. -/
theorem parseValue_writtenSource
    {value : Value}
    (json : value.isJson = true)
    {parsed : Parsed}
    (isParsed : parseValue value = .ok parsed) :
    parseValue (writtenSource parsed) = .ok parsed := by
  obtain ⟨raw, data, flat, areEntries, isSection, isFlat, isDocument, areSettings⟩ :=
    parseValue_eq_ok_iff.mp isParsed
  -- That the document was JSON is needed for what the first reading leaves, and for nothing else.
  have dataIsJson := isJson_metadataSection (isJson_of_entries json areEntries) isSection
  have settled := isSettled_of_flatten dataIsJson isFlat isDocument
  have written :
      entries (writtenSource parsed) =
        .ok (named [("metadata", .object (writtenEntries parsed.document)),
          ("config", Encode.settings parsed.settings)]) := by
    rw [writtenSource, document_eq_object]
    rfl
  exact parseValue_eq_ok_iff.mpr
    ⟨_, named (writtenEntries parsed.document), named (flatEntries parsed.document), written, rfl,
      flatten_writtenEntries settled, document_flatEntries isDocument,
      rereads_settings.again areSettings⟩

/-- A document in the introspection layout, with an enumeration that is repeated, an operation under
two names and words for a truth value and a number. -/
def introspectionSource : Value :=
  .object [
    ("dmmf", .object [
      ("datasource", .object [("provider", .text "mysql")]),
      ("datamodel", .object [
        ("models", .list [.object [("name", .text "User")]]),
        ("enums", .list [.object [("name", .text "Role"),
          ("values", .list [.object [("name", .text "ADMIN")], .text "USER"])]])]),
      ("schema", .object [
        ("inputObjectTypes", .object [
          ("prisma", .list [.object [("name", .text "UserWhereInput"),
            ("fields", .list [.object [("name", .text "id"), ("is_required", .text "yes"),
              ("inputTypes", .list [.object [("type", .text "Int"), ("isList", .int 1)]])]])]])]),
        ("enumTypes", .object [("model", .list [.object [("name", .text "Role")]])])]),
      ("mappings", .object [("modelOperations", .list [.object [("model", .text "User"),
        ("rawOperations", .list [.text "findRaw"]), ("findRaw", .text "findUserRaw"),
        ("create", .text "createOneUser"), ("createOne", .text "createOneUser")]])])]),
    ("config", .object [("workers", .text "4"),
      ("client", .object [("import_file_extension", .text ".js")])])]

/-- What `introspectionSource` is parsed as. -/
def introspectionParsed : Parsed where
  document :=
    { provider := .mysql
      previewFeatures := []
      models := [⟨"User", []⟩]
      enums := [⟨"Role", ["ADMIN", "USER"]⟩]
      composites := [⟨"UserWhereInput", [⟨"id", true, false, [⟨"Int", true, .scalar, none⟩]⟩]⟩]
      mappings := [⟨"User", [.createOne], ["findRaw"]⟩]
      aggregateSupport := none }
  settings :=
    { Settings.default with
      client := { Client.default with importExtension := some "js" }
      workers := 4 }

theorem parseValue_writtenSource_introspection :
    introspectionSource.isJson = true ∧
      parseValue introspectionSource = .ok introspectionParsed ∧
        parseValue (writtenSource introspectionParsed) = .ok introspectionParsed := by
  have json : introspectionSource.isJson = true := by
    decide
  have isParsed : parseValue introspectionSource = .ok introspectionParsed := by
    decide +kernel
  exact ⟨json, isParsed, parseValue_writtenSource json isParsed⟩

end ZodSchemas.Source
