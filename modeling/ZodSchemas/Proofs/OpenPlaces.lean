import ZodSchemas.Proofs.ProviderOverrides
import ZodSchemas.Proofs.SectionReading

namespace ZodSchemas.Source

/-!
# Documents with an open place

A document in which something is left open is a function of what is put there.
Documents that differ in an open place of their metadata section only have the
same settings, and their sections are the ones that differ, unless neither of the
two is read.
-/

open Data
open Data.Mapping
open Metadata

section Places

variable {section_ raw : α → Mapping}

/-- A document with its metadata section left open: under one of the two keys, or as the whole. -/
inductive IsDocumentOf (section_ : α → Mapping) : (α → Mapping) → Prop where
  | metadata (rest : Mapping) :
      IsDocumentOf section_ fun part => rest.put "metadata" (.mapping (section_ part))
  | dmmf (rest : Mapping) :
      IsDocumentOf section_ fun part => rest.put "dmmf" (.mapping (section_ part))
  | bare :
      IsDocumentOf section_ section_

/-- The keys under which a document has its sections. -/
def documentKeys : List String :=
  ["metadata", "dmmf", "config"]

/-- A section that is open under one of its keys, which is none that a document has a section
under. -/
inductive IsOpenUnder (key : String) : (α → Mapping) → Prop where
  | place
      (noSection : key ∉ documentKeys)
      (rest : Mapping)
      (value : α → Value) :
      IsOpenUnder key fun part => rest.put key (value part)

theorem agreeOutside_put_put
    {keys : List String}
    {key : String}
    (inside : key ∈ keys)
    (rest : Mapping)
    (value other : Value) :
    AgreeOutside keys (rest.put key value) (rest.put key other) :=
  fun name outside =>
    (agreeOutside_put inside rest value name outside).symm.trans
      (agreeOutside_put inside rest other name outside)

/-- Whatever is put there, the other keys keep their values. -/
theorem IsOpenUnder.agreeOutside
    {key : String}
    (isOpen : IsOpenUnder key section_)
    (part other : α) :
    AgreeOutside [key] (section_ part) (section_ other) := by
  obtain ⟨-, rest, value⟩ := isOpen
  exact agreeOutside_put_put List.mem_cons_self rest (value part) (value other)

theorem IsOpenUnder.contains
    {key : String}
    (isOpen : IsOpenUnder key section_)
    (part other : α)
    (name : String) :
    (section_ part).contains name = (section_ other).contains name := by
  obtain ⟨-, rest, value⟩ := isOpen
  rw [Mapping.contains, Mapping.contains, Decode.get?_put, Decode.get?_put]
  split <;> rfl

theorem IsOpenUnder.get?_documentKey
    {key : String}
    (isOpen : IsOpenUnder key section_)
    (part other : α)
    {name : String}
    (isSection : name ∈ documentKeys) :
    (section_ part).get? name = (section_ other).get? name := by
  refine isOpen.agreeOutside part other name ?_
  obtain ⟨noSection, -, -⟩ := isOpen
  rw [List.mem_singleton]
  rintro rfl
  exact noSection isSection

variable {key : String} (isDocument : IsDocumentOf section_ raw) (isOpen : IsOpenUnder key section_)

include isDocument isOpen

/-- The settings of a document stand beside its open section. -/
theorem settingsSection_of_isDocumentOf
    (part other : α) :
    settingsSection (raw part) = settingsSection (raw other) := by
  have sameConfig : (raw part).get? "config" = (raw other).get? "config" := by
    cases isDocument with
    | metadata rest =>
        rw [Decode.get?_put, Decode.get?_put, if_neg (by decide), if_neg (by decide)]
    | dmmf rest =>
        rw [Decode.get?_put, Decode.get?_put, if_neg (by decide), if_neg (by decide)]
    | bare =>
        exact isOpen.get?_documentKey part other (by decide)
  rw [settingsSection, settingsSection, sameConfig]

/-- The open section is the one that is read, whatever is put there, or it never is. -/
theorem metadataSection?_cases
    (part other : α) :
    metadataSection? (raw part) = metadataSection? (raw other) ∨
      metadataSection? (raw part) = some (section_ part) ∧
        metadataSection? (raw other) = some (section_ other) := by
  cases isDocument with
  | metadata rest =>
      have isRead (part : α) :
          metadataSection? (rest.put "metadata" (.mapping (section_ part))) =
            some (section_ part) := by
        apply metadataSection?_of_nested
        rw [nested?_put, if_pos rfl]
        rfl
      exact .inr ⟨isRead part, isRead other⟩
  | dmmf rest =>
      have isFirst (part : α) :
          nested? (rest.put "dmmf" (.mapping (section_ part))) "metadata" =
            nested? rest "metadata" := by
        rw [nested?_put, if_neg (by decide)]
      cases stated : nested? rest "metadata" with
      | some metadata =>
          left
          rw [metadataSection?_of_nested ((isFirst part).trans stated),
            metadataSection?_of_nested ((isFirst other).trans stated)]
      | none =>
          have isRead (part : α) :
              metadataSection? (rest.put "dmmf" (.mapping (section_ part))) =
                some (section_ part) := by
            rw [metadataSection?, isFirst, stated, nested?_put, if_pos rfl]
            rfl
          exact .inr ⟨isRead part, isRead other⟩
  | bare =>
      have sameNested (name : String) (isSection : name ∈ documentKeys) :
          nested? (section_ part) name = nested? (section_ other) name := by
        rw [nested?, nested?, isOpen.get?_documentKey part other isSection]
      rw [metadataSection?, metadataSection?, sameNested "metadata" (by decide),
        sameNested "dmmf" (by decide),
        isOpen.contains part other "models", isOpen.contains part other "datamodel"]
      split
      · exact .inl rfl
      · exact .inl rfl
      · split
        · exact .inr ⟨rfl, rfl⟩
        · exact .inl rfl

/-- Where sections are read as related documents, the documents around them are parsed as related
ones with the same settings. -/
theorem exists_parse_of_parseMetadata
    (related : Document → Document → Prop)
    (isRelated : ∀ document, related document document)
    {part other : α}
    (reads :
      ∀ document, parseMetadata (section_ part) = .ok document →
        ∃ further, parseMetadata (section_ other) = .ok further ∧ related document further)
    {parsed : Parsed}
    (isParsed : parse (raw part) = .ok parsed) :
    ∃ document, parse (raw other) = .ok ⟨document, parsed.settings⟩ ∧
      related parsed.document document := by
  obtain ⟨data, isSection, isDocumentRead, areSettings⟩ := parse_eq_ok_iff.mp isParsed
  rw [settingsSection_of_isDocumentOf isDocument isOpen part other] at areSettings
  rcases metadataSection?_cases isDocument isOpen part other with same | ⟨atPart, atOther⟩
  · exact ⟨parsed.document,
      parse_eq_ok_iff.mpr ⟨data, same.symm.trans isSection, isDocumentRead, areSettings⟩,
      isRelated parsed.document⟩
  · obtain rfl := Option.some.inj (atPart.symm.trans isSection)
    obtain ⟨document, isRead, areRelated⟩ := reads _ isDocumentRead
    exact ⟨document, parse_eq_ok_iff.mpr ⟨_, atOther, isRead, areSettings⟩, areRelated⟩

/-- Where sections are read alike, so are the documents around them. -/
theorem parse_congr_of_parseMetadata
    {part other : α}
    (reads :
      ∀ document, parseMetadata (section_ part) = .ok document ↔
        parseMetadata (section_ other) = .ok document)
    (parsed : Parsed) :
    parse (raw part) = .ok parsed ↔ parse (raw other) = .ok parsed := by
  constructor
  · intro isParsed
    obtain ⟨document, isRead, rfl⟩ :=
      exists_parse_of_parseMetadata isDocument isOpen Eq (fun _ => rfl)
        (fun document isRead => ⟨document, (reads document).mp isRead, rfl⟩) isParsed
    exact isRead
  · intro isParsed
    obtain ⟨document, isRead, rfl⟩ :=
      exists_parse_of_parseMetadata isDocument isOpen Eq (fun _ => rfl)
        (fun document isRead => ⟨document, (reads document).mpr isRead, rfl⟩) isParsed
    exact isRead

end Places

end ZodSchemas.Source
