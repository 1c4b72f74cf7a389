import ZodSchemas.Proofs.ProviderOverrides
import ZodSchemas.Proofs.SectionReading
import ZodSchemas.Proofs.SettingsSpelling

namespace ZodSchemas.Source

/-!
# Spellings of the keys of a section

Four keys of a section have a plain spelling beside their document spelling.  A
nested section supplies its values unless the document spelling is there, and
fields are found under the document spelling first.  So composites and mappings
in plain spelling are hidden by a nested section that in document spelling they
would take precedence over.  Everything else is read alike in both spellings.
-/

open Data
open Data.Mapping
open Metadata
open Decode

section Keys

/-- The document spelling of a key in a section. -/
def documentSpelling (key : String) : String :=
  ((documentNames.find? fun name => name.plain = key).map (·.document)).getD key

/-- The document spelling of a key that is a text. -/
def respelledKey : Scalar → Scalar
  | .text key => .text (documentSpelling key)
  | key => key

/-- A section with all its keys in document spelling. -/
def inDocumentSpelling (data : Mapping) : Mapping :=
  data.map fun entry => (respelledKey entry.1, entry.2)

/-- A document with the keys of its metadata section in document spelling. -/
def respelledSource (raw : Mapping) : Mapping :=
  match nested? raw "metadata", nested? raw "dmmf" with
  | some metadata, _ => raw.put "metadata" (.mapping (inDocumentSpelling metadata))
  | none, some dmmf => raw.put "dmmf" (.mapping (inDocumentSpelling dmmf))
  | none, none => inDocumentSpelling raw

/-- No key of a section is there in both spellings. -/
def IsInOneSpelling (data : Mapping) : Prop :=
  ∀ name ∈ documentNames, name.plain ≠ name.document →
    data.get? name.document = none ∨ data.get? name.plain = none

/-- A key that has one spelling only. -/
def HasOneSpelling (key : String) : Prop :=
  ∀ name ∈ documentNames, name.plain = key ∨ name.document = key → name.plain = name.document

instance (key : String) : Decidable (HasOneSpelling key) :=
  inferInstanceAs (Decidable (∀ name ∈ documentNames, _))

theorem eq_of_plain :
    ∀ name ∈ documentNames, ∀ other ∈ documentNames, name.plain = other.plain → name = other := by
  decide

theorem eq_of_document_of_mem :
    ∀ name ∈ documentNames, ∀ other ∈ documentNames,
      name.document = other.document → name = other := by
  decide

theorem documentSpelling_plain
    {name : FieldName}
    (isName : name ∈ documentNames) :
    documentSpelling name.plain = name.document := by
  obtain ⟨other, found⟩ : ∃ other, documentNames.find? (·.plain = name.plain) = some other := by
    rw [← Option.isSome_iff_exists, List.find?_isSome]
    exact ⟨name, isName, decide_eq_true rfl⟩
  have same := eq_of_plain other (List.mem_of_find?_eq_some found) name isName
    (by simpa using List.find?_some found)
  rw [documentSpelling, found, same]
  rfl

/-- A key keeps its spelling or is the plain one of a field. -/
theorem documentSpelling_cases
    (key : String) :
    (documentSpelling key = key ∧ ∀ name ∈ documentNames, name.plain ≠ key) ∨
      ∃ name ∈ documentNames, name.plain = key ∧ documentSpelling key = name.document := by
  by_cases isPlain : ∃ name ∈ documentNames, name.plain = key
  · obtain ⟨name, isName, rfl⟩ := isPlain
    exact .inr ⟨name, isName, rfl, documentSpelling_plain isName⟩
  · have noName : ∀ name ∈ documentNames, name.plain ≠ key :=
      fun name isName same => isPlain ⟨name, isName, same⟩
    have notFound : documentNames.find? (·.plain = key) = none := by
      rw [List.find?_eq_none]
      exact fun name isName => by simpa using noName name isName
    refine .inl ⟨?_, noName⟩
    rw [documentSpelling, notFound]
    rfl

/-- Only the spellings of a field become its document spelling. -/
theorem documentSpelling_eq_document_iff
    {name : FieldName}
    (isName : name ∈ documentNames)
    {key : String} :
    documentSpelling key = name.document ↔ key = name.document ∨ key = name.plain := by
  constructor
  · intro same
    rcases documentSpelling_cases key with ⟨isKept, -⟩ | ⟨other, isOther, rfl, isDocument⟩
    · exact .inl (isKept.symm.trans same)
    · obtain rfl := eq_of_document_of_mem other isOther name isName (isDocument.symm.trans same)
      exact .inr rfl
  · rintro (rfl | rfl)
    · rcases documentSpelling_cases name.document with ⟨isKept, -⟩ | ⟨other, isOther, same, -⟩
      · exact isKept
      · have plainIsOwn :
            ∀ name ∈ documentNames, ∀ other ∈ documentNames,
              other.plain = name.document → other = name := by
          decide
        obtain rfl := plainIsOwn name isName other isOther same
        rw [← same]
        exact (documentSpelling_plain isName).trans same.symm
    · exact documentSpelling_plain isName

/-- No key becomes the plain spelling of a field that has another one. -/
theorem documentSpelling_ne_plain
    {name : FieldName}
    (isName : name ∈ documentNames)
    (different : name.plain ≠ name.document)
    (key : String) :
    documentSpelling key ≠ name.plain := by
  intro same
  rcases documentSpelling_cases key with ⟨isKept, noName⟩ | ⟨other, isOther, -, isDocument⟩
  · exact noName name isName (same.symm.trans isKept)
  · have plainIsOwn :
        ∀ name ∈ documentNames, ∀ other ∈ documentNames,
          other.document = name.plain → name.plain = name.document := by
      decide
    exact different (plainIsOwn name isName other isOther (isDocument.symm.trans same))

theorem documentSpelling_eq_iff_of_single
    {key : String}
    (single : HasOneSpelling key)
    {other : String} :
    documentSpelling other = key ↔ other = key := by
  rcases documentSpelling_cases other with ⟨isKept, -⟩ | ⟨name, isName, rfl, isDocument⟩
  · rw [isKept]
  · rw [isDocument]
    constructor
    · intro same
      exact (single name isName (.inr same)).trans same
    · intro same
      exact (single name isName (.inl same)).symm.trans same

end Keys

section LookUps

variable {data : Mapping}

theorem get?_inDocumentSpelling_cons
    (key : Scalar)
    (value : Value)
    (rest : Mapping)
    (name : String) :
    (inDocumentSpelling ((key, value) :: rest)).get? name =
      if respelledKey key = .text name then some value
      else (inDocumentSpelling rest).get? name :=
  get?_cons (respelledKey key) value (inDocumentSpelling rest) name

theorem respelledKey_eq_text_iff
    {key : Scalar}
    {name : String} :
    respelledKey key = .text name ↔
      ∃ spelling, key = .text spelling ∧ documentSpelling spelling = name := by
  cases key <;> simp [respelledKey]

/-- In document spelling a field has the value that it had in either spelling. -/
theorem get?_document_inDocumentSpelling
    {name : FieldName}
    (isName : name ∈ documentNames)
    (single : data.get? name.document = none ∨ data.get? name.plain = none) :
    (inDocumentSpelling data).get? name.document =
      (data.get? name.document).or (data.get? name.plain) := by
  induction data with
  | nil =>
      rfl
  | cons entry rest inductionHypothesis =>
      obtain ⟨key, value⟩ := entry
      have becomes :
          respelledKey key = .text name.document ↔
            key = .text name.document ∨ key = .text name.plain := by
        simp only [respelledKey_eq_text_iff, documentSpelling_eq_document_iff isName]
        constructor
        · rintro ⟨_, rfl, rfl | rfl⟩
          · exact .inl rfl
          · exact .inr rfl
        · rintro (rfl | rfl)
          · exact ⟨_, rfl, .inl rfl⟩
          · exact ⟨_, rfl, .inr rfl⟩
      rw [get?_inDocumentSpelling_cons]
      rw [get?_cons, get?_cons] at single ⊢
      -- In document spelling the first entry of either spelling is found, so an entry in plain
      -- spelling must not come before one in document spelling: `single` excludes the second one.
      by_cases isDocument : key = .text name.document
      · rw [if_pos (becomes.mpr (.inl isDocument)), if_pos isDocument, Option.some_or]
      · rw [if_neg isDocument] at single ⊢
        by_cases isPlain : key = .text name.plain
        · rw [if_pos isPlain] at single ⊢
          have noDocument := single.resolve_right nofun
          rw [if_pos (becomes.mpr (.inr isPlain)), noDocument, Option.none_or]
        · rw [if_neg isPlain] at single ⊢
          rw [if_neg fun same => (becomes.mp same).elim isDocument isPlain]
          exact inductionHypothesis single

theorem get?_plain_inDocumentSpelling
    {name : FieldName}
    (isName : name ∈ documentNames)
    (different : name.plain ≠ name.document) :
    (inDocumentSpelling data).get? name.plain = none := by
  rw [get?_eq_none_iff]
  refine List.forall_mem_map.mpr fun entry _ same => ?_
  obtain ⟨spelling, -, same⟩ := respelledKey_eq_text_iff.mp same
  exact documentSpelling_ne_plain isName different spelling same

/-- Keys with one spelling keep their values. -/
theorem get?_inDocumentSpelling_of_single
    {key : String}
    (single : HasOneSpelling key)
    (data : Mapping) :
    (inDocumentSpelling data).get? key = data.get? key := by
  induction data with
  | nil =>
      rfl
  | cons entry rest inductionHypothesis =>
      obtain ⟨other, value⟩ := entry
      have becomes : respelledKey other = .text key ↔ other = .text key := by
        simp only [respelledKey_eq_text_iff, documentSpelling_eq_iff_of_single single]
        exact exists_eq_right
      rw [get?_inDocumentSpelling_cons, get?_cons, inductionHypothesis]
      simp only [becomes]

theorem nested?_inDocumentSpelling
    {key : String}
    (single : HasOneSpelling key)
    (data : Mapping) :
    nested? (inDocumentSpelling data) key = nested? data key := by
  rw [nested?, nested?, get?_inDocumentSpelling_of_single single]

@[simp]
theorem nestedProvider?_inDocumentSpelling
    (data : Mapping) :
    nestedProvider? (inDocumentSpelling data) = nestedProvider? data := by
  rw [nestedProvider?, nestedProvider?, nested?_inDocumentSpelling (by decide)]

@[simp]
theorem nestedModels?_inDocumentSpelling
    (data : Mapping) :
    nestedModels? (inDocumentSpelling data) = nestedModels? data := by
  rw [nestedModels?, nestedModels?, nested?_inDocumentSpelling (by decide)]

@[simp]
theorem nestedMappings?_inDocumentSpelling
    (data : Mapping) :
    nestedMappings? (inDocumentSpelling data) = nestedMappings? data := by
  rw [nestedMappings?, nestedMappings?, nested?_inDocumentSpelling (by decide)]

@[simp]
theorem nestedComposites?_inDocumentSpelling
    (data : Mapping) :
    nestedComposites? (inDocumentSpelling data) = nestedComposites? data := by
  rw [nestedComposites?, nestedComposites?, nested?_inDocumentSpelling (by decide)]

@[simp]
theorem enumItems_inDocumentSpelling
    (data : Mapping) :
    enumItems (inDocumentSpelling data) = enumItems data := by
  rw [enumItems, enumItems, modelEnums, modelEnums, typeEnums, typeEnums, listAt, listAt,
    get?_inDocumentSpelling_of_single (by decide), nested?_inDocumentSpelling (by decide),
    nested?_inDocumentSpelling (by decide)]

theorem metadataSection?_respelledSource
    (raw : Mapping) :
    metadataSection? (respelledSource raw) =
      (metadataSection? raw).map inDocumentSpelling := by
  unfold respelledSource
  cases isMetadata : nested? raw "metadata" with
  | some metadata =>
      rw [metadataSection?_of_nested isMetadata]
      apply metadataSection?_of_nested
      rw [nested?_put, if_pos rfl]
      rfl
  | none =>
      cases isDmmf : nested? raw "dmmf" with
      | some dmmf =>
          rw [metadataSection?, metadataSection?, nested?_put, nested?_put, if_neg (by decide),
            if_pos rfl, isMetadata, isDmmf]
          rfl
      | none =>
          have sameKeys :
              ((inDocumentSpelling raw).contains "models" ||
                (inDocumentSpelling raw).contains "datamodel") =
                (raw.contains "models" || raw.contains "datamodel") := by
            simp only [contains,
              get?_inDocumentSpelling_of_single (by decide : HasOneSpelling "models"),
              get?_inDocumentSpelling_of_single (by decide : HasOneSpelling "datamodel")]
          dsimp only
          rw [metadataSection?, metadataSection?, nested?_inDocumentSpelling (by decide),
            nested?_inDocumentSpelling (by decide), isMetadata, isDmmf, sameKeys]
          dsimp only
          split <;> rfl

theorem settingsSection_respelledSource
    (raw : Mapping) :
    settingsSection (respelledSource raw) = settingsSection raw := by
  have sameConfig : (respelledSource raw).get? "config" = raw.get? "config" := by
    unfold respelledSource
    split
    · rw [get?_put, if_neg (by decide)]
    · rw [get?_put, if_neg (by decide)]
    · exact get?_inDocumentSpelling_of_single (by decide) raw
  rw [settingsSection, settingsSection, sameConfig]

end LookUps

section Readings

variable {data raw : Mapping} {document : Document}

/-- A document and the one in document spelling are read alike, or neither is read. -/
def SpellingsAgree (raw : Mapping) : Prop :=
  ∀ parsed, parse raw = .ok parsed ↔ parse (respelledSource raw) = .ok parsed

/-- What a section states in plain spelling and what a nested section supplies instead are both
read as the result. -/
def HidesNothing (own nested : Option Value) (Reads : Option Value → Prop) : Prop :=
  ∀ stated, own = some stated → ∀ supplied, nested = some supplied →
    Reads (some supplied) ∧ Reads (some stated)

/-- No nested section takes the place of values in plain spelling that are read differently. -/
structure HidesNoneOf (data : Mapping) (document : Document) : Prop where
  composites :
    ∀ nested, nestedComposites? data = .ok nested →
      HidesNothing (data.get? "input_object_types") nested
        (ReadsOr (Decode.list composite) [] document.composites)
  mappings :
    HidesNothing (data.get? "model_operations") (nestedMappings? data)
      (ReadsMappings document.mappings)

section Values

variable {inDocument own nested : Option Value} {Reads : Option Value → Prop}

/-- A value in plain spelling comes after a supplied one, and in document spelling before it. -/
theorem reads_iff_of_hidesNothing
    (single : inDocument = none ∨ own = none)
    (hides : HidesNothing own nested Reads) :
    Reads ((inDocument.or own).or nested) ↔ Reads ((inDocument.or nested).or own) := by
  rcases single with rfl | rfl
  · cases own with
    | none =>
        simp
    | some stated =>
        cases nested with
        | none =>
            simp
        | some supplied =>
            obtain ⟨readsSupplied, readsStated⟩ := hides stated rfl supplied rfl
            exact iff_of_true readsStated readsSupplied
  · simp

theorem hidesNothing_of_reads
    (single : inDocument = none ∨ own = none)
    (readsPlain : Reads ((inDocument.or nested).or own))
    (readsDocument : Reads ((inDocument.or own).or nested)) :
    HidesNothing own nested Reads := by
  rintro stated rfl supplied rfl
  rcases single with rfl | ⟨⟨⟩⟩
  exact ⟨readsPlain, readsDocument⟩

end Values

section Section

variable (single : IsInOneSpelling data)

include single

/-- In document spelling a field is read from both spellings before what a nested section
supplies. -/
theorem stated_inDocumentSpelling
    {name : FieldName}
    (isName : name ∈ documentNames)
    (different : name.plain ≠ name.document)
    (nested : Option Value) :
    (((inDocumentSpelling data).get? name.document).or nested).or
        ((inDocumentSpelling data).get? name.plain) =
      ((data.get? name.document).or (data.get? name.plain)).or nested := by
  rw [get?_document_inDocumentSpelling isName (single name isName different),
    get?_plain_inDocumentSpelling isName different, Option.or_none]

/-- The values that a section is read from in document spelling. -/
theorem isReadAs_inDocumentSpelling_iff :
    IsReadAs (inDocumentSpelling data) document ↔
      ReadsOr (member Provider.all Provider.label) .postgresql document.provider
          ((data.get? "provider").or (nestedProvider? data)) ∧
        ReadsOr (Decode.list text) [] document.previewFeatures
          ((data.get? "previewFeatures").or (data.get? "preview_features")) ∧
        ReadsOr (Decode.list model) [] document.models
          ((data.get? "models").or (nestedModels? data)) ∧
        ReadsEnums data document.enums ∧
        (∃ nested, nestedComposites? data = .ok nested ∧
          ReadsOr (Decode.list composite) [] document.composites
            (((data.get? "inputObjectTypes").or (data.get? "input_object_types")).or nested)) ∧
        ReadsMappings document.mappings
          (((data.get? "modelOperations").or (data.get? "model_operations")).or
            (nestedMappings? data)) ∧
        ReadsOr (orNull (dictionary Decode.aggregateSupport)) none document.aggregateSupport
          ((data.get? "aggregateSupport").or (data.get? "aggregate_support")) ∧
        refuseDuplicates "model names" (document.models.map (·.name)) = none := by
  have stated (name : FieldName) (isName : name ∈ documentNames)
      (different : name.plain ≠ name.document) (nested : Option Value) :=
    stated_inDocumentSpelling single isName different nested
  have features := stated ⟨"previewFeatures", "preview_features"⟩ (by decide) (by decide) none
  have composites := stated ⟨"inputObjectTypes", "input_object_types"⟩ (by decide) (by decide)
  have mappings := stated ⟨"modelOperations", "model_operations"⟩ (by decide) (by decide)
  have support := stated ⟨"aggregateSupport", "aggregate_support"⟩ (by decide) (by decide) none
  simp only [Option.or_none] at features support
  simp only [isReadAs_iff, ReadsEnums, features, composites, mappings, support,
    nestedProvider?_inDocumentSpelling, nestedModels?_inDocumentSpelling,
    nestedMappings?_inDocumentSpelling, nestedComposites?_inDocumentSpelling,
    enumItems_inDocumentSpelling,
    get?_inDocumentSpelling_of_single (by decide : HasOneSpelling "provider"),
    get?_inDocumentSpelling_of_single (by decide : HasOneSpelling "models")]

/-- Where nothing is hidden, a section is read alike in document spelling. -/
theorem isReadAs_iff_of_hidesNoneOf
    (hides : HidesNoneOf data document) :
    IsReadAs (inDocumentSpelling data) document ↔ IsReadAs data document := by
  have composites (nested : Option Value) (isNested : nestedComposites? data = .ok nested) :=
    reads_iff_of_hidesNothing
      (single ⟨"inputObjectTypes", "input_object_types"⟩ (by decide) (by decide))
      (hides.composites nested isNested)
  have mappings :=
    reads_iff_of_hidesNothing
      (single ⟨"modelOperations", "model_operations"⟩ (by decide) (by decide))
      hides.mappings
  rw [isReadAs_inDocumentSpelling_iff single, isReadAs_iff, mappings,
    exists_congr fun nested => and_congr_right (composites nested)]

/-- What is read as one document in both spellings hides nothing of it. -/
theorem hidesNoneOf_of_isReadAs
    (inPlain : IsReadAs data document)
    (inDocument : IsReadAs (inDocumentSpelling data) document) :
    HidesNoneOf data document := by
  obtain ⟨-, -, -, -, ⟨nested, isNested, readsComposites⟩, readsMappings, -, -⟩ :=
    (isReadAs_inDocumentSpelling_iff single).mp inDocument
  obtain ⟨_, alsoNested, readsHidden⟩ := inPlain.composites
  obtain rfl := Except.ok.inj (isNested.symm.trans alsoNested)
  constructor
  · intro other isOther
    obtain rfl := Except.ok.inj (isNested.symm.trans isOther)
    exact hidesNothing_of_reads
      (single ⟨"inputObjectTypes", "input_object_types"⟩ (by decide) (by decide))
      readsHidden readsComposites
  · exact hidesNothing_of_reads
      (single ⟨"modelOperations", "model_operations"⟩ (by decide) (by decide))
      inPlain.mappings readsMappings

end Section

theorem parse_respelledSource_eq_ok_iff
    {parsed : Parsed} :
    parse (respelledSource raw) = .ok parsed ↔
      ∃ data, metadataSection? raw = some data ∧
        IsReadAs (inDocumentSpelling data) parsed.document ∧
        Decode.settings (settingsSection raw) = .accepted parsed.settings := by
  rw [parse_eq_ok_iff, metadataSection?_respelledSource, settingsSection_respelledSource]
  simp [Option.map_eq_some_iff, parseMetadata_eq_ok_iff_isReadAs]

theorem parse_eq_ok_iff_isReadAs
    {parsed : Parsed} :
    parse raw = .ok parsed ↔
      ∃ data, metadataSection? raw = some data ∧ IsReadAs data parsed.document ∧
        Decode.settings (settingsSection raw) = .accepted parsed.settings := by
  simp only [parse_eq_ok_iff, parseMetadata_eq_ok_iff_isReadAs]

/-- Both spellings of a section agree exactly if no nested section takes the place of composites or
mappings in plain spelling: whatever is read in either spelling is read from what is hidden as well
as from what hides it. -/
theorem spellingsAgree_iff_hidesNoneOf
    (single : ∀ data, metadataSection? raw = some data → IsInOneSpelling data) :
    SpellingsAgree raw ↔
      ∀ data, metadataSection? raw = some data →
        ∀ parsed, parse raw = .ok parsed ∨ parse (respelledSource raw) = .ok parsed →
          HidesNoneOf data parsed.document := by
  constructor
  · intro agree data isSection parsed isParsed
    have inPlain : parse raw = .ok parsed :=
      isParsed.elim id (agree parsed).mpr
    obtain ⟨_, isData, isRead, -⟩ := parse_eq_ok_iff_isReadAs.mp inPlain
    obtain ⟨_, alsoData, isRespelled, -⟩ :=
      parse_respelledSource_eq_ok_iff.mp ((agree parsed).mp inPlain)
    obtain rfl := Option.some.inj (isSection.symm.trans isData)
    obtain rfl := Option.some.inj (isSection.symm.trans alsoData)
    exact hidesNoneOf_of_isReadAs (single data isSection) isRead isRespelled
  · intro hides parsed
    constructor
    · intro isParsed
      obtain ⟨data, isSection, isRead, areSettings⟩ := parse_eq_ok_iff_isReadAs.mp isParsed
      have nothing := hides data isSection parsed (.inl isParsed)
      exact parse_respelledSource_eq_ok_iff.mpr ⟨data, isSection,
        (isReadAs_iff_of_hidesNoneOf (single data isSection) nothing).mpr isRead, areSettings⟩
    · intro isParsed
      obtain ⟨data, isSection, isRead, areSettings⟩ := parse_respelledSource_eq_ok_iff.mp isParsed
      have nothing := hides data isSection parsed (.inr isParsed)
      exact parse_eq_ok_iff_isReadAs.mpr ⟨data, isSection,
        (isReadAs_iff_of_hidesNoneOf (single data isSection) nothing).mp isRead, areSettings⟩

/-- A document whose only section has its keys in plain spelling, beside nested models. -/
def plainSource : Mapping :=
  [(.text "metadata", .object [
    ("datamodel", .object [("models", .list [.object [("name", .text "User")]])]),
    ("preview_features", .texts ["fullTextSearch"]),
    ("input_object_types", .list [.object [("name", .text "UserWhereInput")]])])]

theorem spellingsAgree_iff_plainSource :
    (∀ data, metadataSection? plainSource = some data → IsInOneSpelling data) ∧
      SpellingsAgree plainSource ∧
      (parse plainSource).toOption.map (fun parsed =>
        (parsed.document.models.map (·.name), parsed.document.composites.map (·.name))) =
        some (["User"], ["UserWhereInput"]) := by
  have single : ∀ data, metadataSection? plainSource = some data → IsInOneSpelling data := by
    rintro _ ⟨⟩
    unfold IsInOneSpelling
    decide
  refine ⟨single, ?_, by decide +kernel⟩
  refine (spellingsAgree_iff_hidesNoneOf single).mpr ?_
  rintro _ ⟨⟩ parsed -
  constructor
  · rintro _ ⟨⟩ _ _ _ ⟨⟩
  · rintro _ _ _ ⟨⟩

/-- A document with composites in plain spelling beside a nested section that lists none. -/
def hidingSource : Mapping :=
  [(.text "metadata", .object [
    ("models", .list [.object [("name", .text "User")]]),
    ("input_object_types", .list [.object [("name", .text "UserWhereInput")]]),
    ("schema", .object [])])]

theorem not_spellingsAgree_hidingSource :
    (∀ data, metadataSection? hidingSource = some data → IsInOneSpelling data) ∧
      ¬ SpellingsAgree hidingSource := by
  have single : ∀ data, metadataSection? hidingSource = some data → IsInOneSpelling data := by
    rintro _ ⟨⟩
    unfold IsInOneSpelling
    decide
  have readsNone :
      (parse hidingSource).toOption.map (·.document.composites.map (·.name)) = some [] := by
    decide +kernel
  have readsOne :
      (parse (respelledSource hidingSource)).toOption.map (·.document.composites.map (·.name)) =
        some ["UserWhereInput"] := by
    decide +kernel
  refine ⟨single, fun agree => ?_⟩
  obtain ⟨parsed, isParsed, nothing⟩ := Option.map_eq_some_iff.mp readsNone
  rw [(agree parsed).mp (eq_ok_of_toOption isParsed)] at readsOne
  exact absurd (nothing.symm.trans (Option.some.inj readsOne)) (by decide)

end Readings

end ZodSchemas.Source
