import Mathlib.Data.Set.List
import ZodSchemas.Proofs.OpenPlaces
import ZodSchemas.Proofs.OperationSets
import ZodSchemas.Proofs.UnknownKeys
import ZodSchemas.Proofs.WellShapedSections

namespace ZodSchemas.Source

/-!
# Forms of operation mappings

A mapping may list its operations, have them as keys, or both; some operations
have two names, and raw ones may stand among the others or in a list of their own.
However it is written, a mapping is read as its model and the sets of its
operations, so of a document only these sets matter.
-/

open Data
open Data.Mapping
open Metadata
open Decode
open Decode.Decoded

section Names

/-- A mapping names an operation: in its list, or as a key that is not reserved and has a value that
counts. -/
inductive NamesOperation (entry : Mapping) : Value → Prop where
  | listed
      {names : List Value}
      {name : Value}
      (areListed : parts (listedOperations entry) = .ok names)
      (member : name ∈ names) :
      NamesOperation entry name
  | key
      {key : Scalar}
      {value : Value}
      (member : (key, value) ∈ entry)
      (unreserved : ∀ reserved ∈ reservedKeys, key ≠ .text reserved)
      (counts : value.isVacant = false) :
      NamesOperation entry (.scalar key)

/-- A mapping names a raw operation: in a list of such, or among its other operations. -/
inductive NamesRaw (entry : Mapping) : Value → Prop where
  | listed
      {names : List Value}
      {name : Value}
      (areListed : parts (listedRaw entry) = .ok names)
      (member : name ∈ names) :
      NamesRaw entry name
  | amongOthers
      {label : String}
      (isNamed : NamesOperation entry (.text label))
      (isRaw : label ∈ Operation.rawNames) :
      NamesRaw entry (.text label)

/-- An operation is what one of the names of a mapping stands for. -/
def HasOperation (entry : Mapping) (operation : Operation) : Prop :=
  ∃ label, NamesOperation entry (.text label) ∧ Operation.canonical? label = some operation

/-- The names in a mapping are texts, and its lists can be taken apart. -/
structure HasTextNames (entry : Mapping) : Prop where
  operations : HasParts (listedOperations entry)
  rawOperations : HasParts (listedRaw entry)
  areTexts : ∀ name, NamesOperation entry name ∨ NamesRaw entry name → ∃ label, name = .text label

/-- Two mappings have the same model and the same sets of operations. -/
structure HaveSameOperations (entry other : Mapping) : Prop where
  model : other.get? "model" = entry.get? "model"
  operations : ∀ operation, HasOperation other operation ↔ HasOperation entry operation
  rawOperations : ∀ name, NamesRaw other name ↔ NamesRaw entry name

/-- The texts with which a mapping names operations, and those that it lists as raw ones. -/
structure IsNamedBy (entry : Mapping) (labels raw : List String) : Prop where
  operations :
    ∃ listed, parts (listedOperations entry) = .ok listed ∧
      listed ++ keyNames entry = labels.map .text
  rawOperations : parts (listedRaw entry) = .ok (raw.map .text)

variable {entry : Mapping} {name : Value} {labels raw : List String}

theorem scalar_mem_keyNames_iff
    {key : Scalar} :
    .scalar key ∈ keyNames entry ↔
      ∃ value, (key, value) ∈ entry ∧ (∀ reserved ∈ reservedKeys, key ≠ .text reserved) ∧
        value.isVacant = false := by
  simp only [keyNames, List.mem_map, List.mem_filter, Bool.and_eq_true, Bool.not_eq_true',
    List.any_eq_false, same_text, decide_eq_true_eq]
  constructor
  · rintro ⟨⟨_, value⟩, ⟨member, unreserved, counts⟩, ⟨⟩⟩
    exact ⟨value, member, unreserved, counts⟩
  · rintro ⟨value, member, unreserved, counts⟩
    exact ⟨(key, value), ⟨member, unreserved, counts⟩, rfl⟩

theorem namesOperation_iff :
    NamesOperation entry name ↔
      (∃ listed, parts (listedOperations entry) = .ok listed ∧ name ∈ listed) ∨
        name ∈ keyNames entry := by
  constructor
  · rintro (⟨areListed, member⟩ | ⟨member, unreserved, counts⟩)
    · exact .inl ⟨_, areListed, member⟩
    · exact .inr (scalar_mem_keyNames_iff.mpr ⟨_, member, unreserved, counts⟩)
  · rintro (⟨listed, areListed, member⟩ | member)
    · exact .listed areListed member
    · obtain ⟨⟨key, value⟩, -, rfl⟩ := List.mem_map.mp member
      obtain ⟨value, inEntry, unreserved, counts⟩ := scalar_mem_keyNames_iff.mp member
      exact .key inEntry unreserved counts

theorem text_mem_map_text_iff
    {label : String} :
    .text label ∈ labels.map Value.text ↔ label ∈ labels := by
  simp [Value.text]

section Labels

variable (isNamedBy : IsNamedBy entry labels raw)

include isNamedBy

theorem namesOperation_iff_of_isNamedBy :
    NamesOperation entry name ↔ name ∈ labels.map Value.text := by
  obtain ⟨listed, areListed, areLabels⟩ := isNamedBy.operations
  rw [namesOperation_iff, ← areLabels, List.mem_append]
  simp only [areListed, Except.ok.injEq, exists_eq_left']

theorem namesRaw_iff_of_isNamedBy :
    NamesRaw entry name ↔
      name ∈ (raw ++ labels.filter Operation.rawNames.contains).map Value.text := by
  rw [List.map_append, List.mem_append]
  constructor
  · rintro (⟨areListed, member⟩ | ⟨isNamed, isRaw⟩)
    · obtain rfl := Except.ok.inj (isNamedBy.rawOperations.symm.trans areListed)
      exact .inl member
    · have isLabel :=
        text_mem_map_text_iff.mp ((namesOperation_iff_of_isNamedBy isNamedBy).mp isNamed)
      exact .inr (List.mem_map_of_mem
        (List.mem_filter.mpr ⟨isLabel, List.contains_iff_mem.mpr isRaw⟩))
  · rintro (inRaw | isRaw)
    · exact .listed isNamedBy.rawOperations inRaw
    · obtain ⟨label, isLabel, rfl⟩ := List.mem_map.mp isRaw
      obtain ⟨isNamed, isRaw⟩ := List.mem_filter.mp isLabel
      exact .amongOthers
        ((namesOperation_iff_of_isNamedBy isNamedBy).mpr (List.mem_map_of_mem isNamed))
        (List.contains_iff_mem.mp isRaw)

theorem hasOperation_iff
    {operation : Operation} :
    HasOperation entry operation ↔ operation ∈ labels.filterMap Operation.canonical? := by
  simp only [HasOperation, namesOperation_iff_of_isNamedBy isNamedBy, text_mem_map_text_iff,
    List.mem_filterMap]

end Labels

/-- The names in a mapping are texts exactly if there are texts that they are. -/
theorem hasTextNames_iff :
    HasTextNames entry ↔ ∃ labels raw, IsNamedBy entry labels raw := by
  constructor
  · intro texts
    obtain ⟨listed, areListed⟩ := exists_parts_iff.mpr texts.operations
    obtain ⟨listedRaw, areListedRaw⟩ := exists_parts_iff.mpr texts.rawOperations
    have ofTexts
        {names : List Value}
        (areTexts : ∀ name ∈ names, ∃ label, name = .text label) :
        ∃ labels : List String, labels.map Value.text = names := by
      have inRange : names ∈ Set.range (List.map Value.text) := by
        rw [Set.range_list_map]
        exact fun name member => (areTexts name member).imp fun _ same => same.symm
      exact inRange
    have areTexts : ∀ name ∈ listed ++ keyNames entry, ∃ label, name = .text label := by
      intro name member
      refine texts.areTexts name (.inl (namesOperation_iff.mpr ?_))
      exact (List.mem_append.mp member).imp_left fun inListed => ⟨listed, areListed, inListed⟩
    obtain ⟨labels, areLabels⟩ := ofTexts areTexts
    obtain ⟨raw, areRaw⟩ := ofTexts fun name member =>
      texts.areTexts name (.inr (.listed areListedRaw member))
    exact ⟨labels, raw, ⟨listed, areListed, areLabels.symm⟩, areRaw ▸ areListedRaw⟩
  · rintro ⟨labels, raw, isNamedBy⟩
    obtain ⟨listed, areListed, -⟩ := isNamedBy.operations
    refine ⟨exists_parts_iff.mp ⟨listed, areListed⟩,
      exists_parts_iff.mp ⟨_, isNamedBy.rawOperations⟩, fun name named => ?_⟩
    rw [namesOperation_iff_of_isNamedBy isNamedBy, namesRaw_iff_of_isNamedBy isNamedBy] at named
    rcases named with isLabel | isRaw
    · obtain ⟨label, -, rfl⟩ := List.mem_map.mp isLabel
      exact ⟨label, rfl⟩
    · obtain ⟨label, -, rfl⟩ := List.mem_map.mp isRaw
      exact ⟨label, rfl⟩

end Names

section Reading

/-- Raw operations have no canonical name. -/
theorem canonical?_of_isRaw
    {label : String}
    (isRaw : Operation.rawNames.contains label = true) :
    Operation.canonical? label = none := by
  simp only [Operation.rawNames, List.contains_iff_mem, List.mem_cons, List.not_mem_nil, or_false]
    at isRaw
  rcases isRaw with rfl | rfl <;> rfl

theorem namedOperations_map_text
    (labels : List String) :
    namedOperations (labels.map .text) = .ok (labels.filterMap Operation.canonical?) := by
  have areRead :
      ((labels.filter (!Operation.rawNames.contains ·)).map Value.text).mapM canonicalOperation? =
        .ok ((labels.filter (!Operation.rawNames.contains ·)).map Operation.canonical?) := by
    rw [mapM_eq_ok_iff, List.forall₂_map_left_iff, List.forall₂_map_right_iff, List.forall₂_same]
    exact fun _ _ => rfl
  have remaining :
      (labels.map Value.text).filter (!isRawName ·) =
        (labels.filter (!Operation.rawNames.contains ·)).map Value.text :=
    List.filter_map ..
  simp only [namedOperations, bind_eq_ok_iff, remaining]
  refine ⟨_, areRead, congrArg _ ?_⟩
  rw [List.filterMap_map, List.filterMap_filter]
  refine List.filterMap_congr fun label _ => ?_
  cases isRaw : Operation.rawNames.contains label with
  | true =>
      simp [canonical?_of_isRaw isRaw]
  | false =>
      simp

variable {entry : Mapping} {labels raw : List String}

/-- The mapping of a model that some texts name the operations of. -/
def mappingNamedBy (model : String) (labels raw : List String) : OperationMapping where
  model := model
  operations := distinct (labels.filterMap Operation.canonical?)
  rawOperations := distinct (raw ++ labels.filter Operation.rawNames.contains)

theorem operationMapping_canonicalEntries_iff
    {model : Value}
    {operations : List Operation}
    {mapping : OperationMapping} :
    operationMapping (.object (canonicalEntries model operations (raw.map .text))) =
        .accepted mapping ↔
      ∃ name, filledText model = .accepted name ∧
        OperationMapping.mk name (distinct operations) raw = mapping := by
  have areOperations :
      (Decode.list (member Operation.all Operation.label)
          (.texts (operations.map Operation.label))).map distinct =
        .accepted (distinct operations) := by
    have areRead :
        Decode.list (member Operation.all Operation.label)
            (.list (operations.map fun operation => .text operation.label)) =
          .accepted operations :=
      list_map_eq_accepted fun operation _ => by cases operation <;> rfl
    rw [Value.texts, List.map_map]
    exact congrArg _ areRead
  have areRaw : Decode.list text (.list (raw.map .text)) = .accepted raw :=
    list_map_eq_accepted fun _ _ => rfl
  have inFields :
      operationMapping (.object (canonicalEntries model operations (raw.map .text))) =
        OperationMapping.mk <$> (filledText model).below (.key "model")
          <*> ((Decode.list (member Operation.all Operation.label)
            (.texts (operations.map Operation.label))).map distinct).below (.key "operations")
          <*> (Decode.list text (.list (raw.map .text))).below (.key "rawOperations") :=
    rfl
  rw [inFields, areOperations, areRaw]
  simp only [seq_eq_accepted_iff, map_eq_accepted_iff, below_eq_accepted_iff]
  constructor
  · rintro ⟨_, _, ⟨_, _, ⟨name, isName, rfl⟩, ⟨⟩, rfl⟩, ⟨⟩, rfl⟩
    exact ⟨name, isName, rfl⟩
  · rintro ⟨name, isName, rfl⟩
    exact ⟨_, _, ⟨_, _, ⟨name, isName, rfl⟩, rfl, rfl⟩, rfl, rfl⟩

/-- An item of a list of operation mappings is read as a mapping. -/
def ReadsEntry (item : Value) (mapping : OperationMapping) : Prop :=
  ∃ canonical, canonicalMapping item = .ok canonical ∧
    operationMapping canonical = .accepted mapping

/-- A mapping is read from its model and from the texts that name its operations. -/
theorem readsEntry_iff_of_isNamedBy
    (isNamedBy : IsNamedBy entry labels raw)
    {mapping : OperationMapping} :
    ReadsEntry (.mapping entry) mapping ↔
      ∃ model, filledText ((entry.get? "model").getD .null) = .accepted model ∧
        mappingNamedBy model labels raw = mapping := by
  obtain ⟨listed, areListed, areLabels⟩ := isNamedBy.operations
  have rawNamed :
      raw.map Value.text ++ (labels.map Value.text).filter isRawName =
        (raw ++ labels.filter Operation.rawNames.contains).map Value.text := by
    rw [List.map_append]
    exact congrArg _ (List.filter_map ..)
  have areRaw := withoutRepetitions_map_text [] (raw ++ labels.filter Operation.rawNames.contains)
  have isCanonical :
      canonicalMapping (.mapping entry) =
        .ok (.object (canonicalEntries ((entry.get? "model").getD .null)
          (labels.filterMap Operation.canonical?)
          ((distinct (raw ++ labels.filter Operation.rawNames.contains)).map .text))) := by
    simp only [canonicalMapping_eq, bind_eq_ok_iff]
    refine ⟨_, isNamedBy.rawOperations, listed, areListed, _, ?_, _, ?_, rfl⟩
    · rw [areLabels, namedOperations_map_text]
    · rw [areLabels, rawNamed]
      simpa using areRaw
  simp only [ReadsEntry, isCanonical, Except.ok.injEq, exists_eq_left',
    operationMapping_canonicalEntries_iff, mappingNamedBy]

variable {other : Mapping}

theorem sameSets_of_haveSameOperations
    (same : HaveSameOperations entry other)
    (isNamedBy : IsNamedBy entry labels raw)
    {otherLabels otherRaw : List String}
    (otherIsNamedBy : IsNamedBy other otherLabels otherRaw)
    (model : String) :
    (mappingNamedBy model labels raw).SameSets (mappingNamedBy model otherLabels otherRaw) where
  model := rfl
  operations operation := by
    simp only [mappingNamedBy, mem_distinct, ← hasOperation_iff isNamedBy,
      ← hasOperation_iff otherIsNamedBy, same.operations]
  rawOperations label := by
    rw [mappingNamedBy, mappingNamedBy, mem_distinct, mem_distinct, ← text_mem_map_text_iff,
      ← text_mem_map_text_iff, ← namesRaw_iff_of_isNamedBy isNamedBy,
      ← namesRaw_iff_of_isNamedBy otherIsNamedBy, same.rawOperations]

/-- Mappings with the same operations are read as mappings with the same operations. -/
theorem exists_readsEntry_of_haveSameOperations
    (texts : HasTextNames entry)
    (otherTexts : HasTextNames other)
    (same : HaveSameOperations entry other)
    {mapping : OperationMapping}
    (reads : ReadsEntry (.mapping entry) mapping) :
    ∃ further, mapping.SameSets further ∧ ReadsEntry (.mapping other) further := by
  obtain ⟨labels, raw, isNamedBy⟩ := hasTextNames_iff.mp texts
  obtain ⟨otherLabels, otherRaw, otherIsNamedBy⟩ := hasTextNames_iff.mp otherTexts
  obtain ⟨model, isModel, rfl⟩ := (readsEntry_iff_of_isNamedBy isNamedBy).mp reads
  refine ⟨_, sameSets_of_haveSameOperations same isNamedBy otherIsNamedBy model,
    (readsEntry_iff_of_isNamedBy otherIsNamedBy).mpr ⟨model, ?_, rfl⟩⟩
  rw [same.model, isModel]

/-- Lists are related in two steps exactly if their members are. -/
theorem exists_forall₂_iff
    {first : α → β → Prop}
    {second : β → γ → Prop}
    {items : List α}
    {results : List γ} :
    (∃ between, List.Forall₂ first items between ∧ List.Forall₂ second between results) ↔
      List.Forall₂ (fun item result => ∃ middle, first item middle ∧ second middle result)
        items results := by
  constructor
  · rintro ⟨between, toBetween, fromBetween⟩
    induction toBetween generalizing results with
    | nil =>
        cases fromBetween
        exact .nil
    | cons atHead _ inductionHypothesis =>
        obtain ⟨result, rest, onward, further, rfl⟩ := List.forall₂_cons_left_iff.mp fromBetween
        exact .cons ⟨_, atHead, onward⟩ (inductionHypothesis further)
  · intro each
    induction each with
    | nil =>
        exact ⟨[], .nil, .nil⟩
    | cons atHead _ inductionHypothesis =>
        obtain ⟨middle, toMiddle, fromMiddle⟩ := atHead
        obtain ⟨between, toBetween, fromBetween⟩ := inductionHypothesis
        exact ⟨middle :: between, .cons toMiddle toBetween, .cons fromMiddle fromBetween⟩

/-- A list of mappings is read one by one. -/
theorem readsMappings_list_iff
    {items : List Value}
    {mappings : List OperationMapping} :
    ReadsMappings mappings (some (.list items)) ↔ List.Forall₂ ReadsEntry items mappings := by
  unfold ReadsEntry
  rw [← exists_forall₂_iff]
  simp only [← mapM_eq_ok_iff, ← list_items_eq_accepted_iff]
  constructor
  · rintro (_ | _ | ⟨⟨⟩, areCanonical, areRead⟩)
    exact ⟨_, areCanonical, areRead⟩
  · rintro ⟨canonical, areCanonical, areRead⟩
    exact .listed rfl areCanonical areRead

theorem exists_readsMappings_of_haveSameOperations
    (texts : HasTextNames entry)
    (otherTexts : HasTextNames other)
    (same : HaveSameOperations entry other)
    {front behind : List Value}
    {mappings : List OperationMapping}
    (reads : ReadsMappings mappings (some (.list (front ++ .mapping entry :: behind)))) :
    ∃ further, List.Forall₂ OperationMapping.SameSets mappings further ∧
      ReadsMappings further (some (.list (front ++ .mapping other :: behind))) := by
  simp only [readsMappings_list_iff] at reads ⊢
  -- What stands in front of the mapping and behind it is read as before.
  induction front generalizing mappings with
  | nil =>
      obtain ⟨mapping, rest, atEntry, atBehind, rfl⟩ := List.forall₂_cons_left_iff.mp reads
      obtain ⟨further, sameSets, atOther⟩ :=
        exists_readsEntry_of_haveSameOperations texts otherTexts same atEntry
      exact ⟨further :: rest, .cons sameSets (forall₂_sameSets_refl rest), .cons atOther atBehind⟩
  | cons item front inductionHypothesis =>
      obtain ⟨mapping, rest, atItem, atRest, rfl⟩ := List.forall₂_cons_left_iff.mp reads
      obtain ⟨further, sameSets, areRead⟩ := inductionHypothesis atRest
      exact ⟨mapping :: further, .cons (.refl mapping) sameSets, .cons atItem areRead⟩

end Reading

section Places

variable {section_ raw : Mapping → Mapping}

/-- A section with one of its operation mappings left open. -/
inductive IsMappingPlace : (Mapping → Mapping) → Prop where
  | own (rest : Mapping) (front behind : List Value) :
      IsMappingPlace fun entry =>
        rest.put "modelOperations" (.list (front ++ .mapping entry :: behind))
  | plain (rest : Mapping) (front behind : List Value) :
      IsMappingPlace fun entry =>
        rest.put "model_operations" (.list (front ++ .mapping entry :: behind))
  | nested (rest mappings : Mapping) (front behind : List Value) :
      IsMappingPlace fun entry =>
        rest.put "mappings" (.mapping
          (mappings.put "modelOperations" (.list (front ++ .mapping entry :: behind))))

theorem exists_isOpenUnder_of_isMappingPlace
    (isPlace : IsMappingPlace section_) :
    ∃ key ∈ ["modelOperations", "model_operations", "mappings"], IsOpenUnder key section_ := by
  cases isPlace with
  | own rest =>
      exact ⟨_, by decide, .place (by decide) rest _⟩
  | plain rest =>
      exact ⟨_, by decide, .place (by decide) rest _⟩
  | nested rest =>
      exact ⟨_, by decide, .place (by decide) rest _⟩

/-- The open mapping is one of those that are read, or what is put there never is. -/
theorem statedMappings?_cases
    (isPlace : IsMappingPlace section_) :
    (∀ entry other, statedMappings? (section_ entry) = statedMappings? (section_ other)) ∨
      ∃ front behind, ∀ entry,
        statedMappings? (section_ entry) = some (.list (front ++ .mapping entry :: behind)) := by
  cases isPlace with
  | own rest front behind =>
      refine .inr ⟨front, behind, fun entry => ?_⟩
      rw [statedMappings?, Decode.get?_put, if_pos rfl]
      rfl
  | plain rest front behind =>
      -- The plain spelling comes last, so it is read only where nothing else is stated.
      have isLast (value : Value) :
          statedMappings? (rest.put "model_operations" value) =
            ((rest.get? "modelOperations").or (nestedMappings? rest)).or (some value) := by
        rw [statedMappings?, Decode.get?_put, if_neg (by decide), nestedMappings?, nested?_put,
          if_neg (by decide), Decode.get?_put, if_pos rfl]
        rfl
      simp only [isLast]
      cases (rest.get? "modelOperations").or (nestedMappings? rest) with
      | some earlier =>
          exact .inl fun _ _ => rfl
      | none =>
          exact .inr ⟨front, behind, fun _ => rfl⟩
  | nested rest mappings front behind =>
      have isSecond (value : Value) :
          statedMappings? (rest.put "mappings" (.mapping (mappings.put "modelOperations" value))) =
            (rest.get? "modelOperations").or (some value) := by
        rw [statedMappings?, Decode.get?_put, if_neg (by decide), nestedMappings?, nested?_put,
          if_pos rfl, Value.entries?, Option.map_some, listAt_put_self]
        cases rest.get? "modelOperations" <;> rfl
      simp only [isSecond]
      cases rest.get? "modelOperations" with
      | some own =>
          exact .inl fun _ _ => rfl
      | none =>
          exact .inr ⟨front, behind, fun _ => rfl⟩

/-- Everything in a section but its operation mappings is read without them. -/
theorem isReadAs_of_readsMappings
    {data other : Mapping}
    (agree : AgreeOutside ["modelOperations", "model_operations", "mappings"] data other)
    {document : Document}
    (reads : IsReadAs data document)
    {mappings : List OperationMapping}
    (readsMappings : ReadsMappings mappings (statedMappings? other)) :
    IsReadAs other { document with mappings := mappings } := by
  rw [isReadAs_iff] at reads ⊢
  rw [ReadsEnums, enumItems_congr agree (by decide) (by decide) (by decide),
    nestedProvider?_congr agree (by decide), nestedModels?_congr agree (by decide),
    nestedComposites?_congr agree (by decide),
    agree "provider" (by decide), agree "previewFeatures" (by decide),
    agree "preview_features" (by decide), agree "models" (by decide),
    agree "inputObjectTypes" (by decide), agree "input_object_types" (by decide),
    agree "aggregateSupport" (by decide), agree "aggregate_support" (by decide)] at reads
  obtain ⟨provider, features, models, enums, composites, -, support, namesApart⟩ := reads
  exact ⟨provider, features, models, enums, composites, readsMappings, support, namesApart⟩

/-- A section is read alike whichever of two mappings with the same operations it lists. -/
theorem exists_parseMetadata_of_haveSameOperations
    (isPlace : IsMappingPlace section_)
    {entry other : Mapping}
    (texts : HasTextNames entry)
    (otherTexts : HasTextNames other)
    (same : HaveSameOperations entry other)
    {document : Document}
    (isRead : parseMetadata (section_ entry) = .ok document) :
    ∃ mappings, List.Forall₂ OperationMapping.SameSets document.mappings mappings ∧
      parseMetadata (section_ other) = .ok { document with mappings := mappings } := by
  simp only [parseMetadata_eq_ok_iff_isReadAs] at isRead ⊢
  obtain ⟨key, isMappingKey, isOpen⟩ := exists_isOpenUnder_of_isMappingPlace isPlace
  have agree :
      AgreeOutside ["modelOperations", "model_operations", "mappings"]
        (section_ entry) (section_ other) := by
    intro name beside
    refine isOpen.agreeOutside entry other name fun isKey => beside ?_
    rwa [List.mem_singleton.mp isKey]
  have reads : ReadsMappings document.mappings (statedMappings? (section_ entry)) :=
    isRead.mappings
  rcases statedMappings?_cases isPlace with unread | ⟨front, behind, stated⟩
  · rw [unread entry other] at reads
    exact ⟨document.mappings, forall₂_sameSets_refl _,
      isReadAs_of_readsMappings agree isRead reads⟩
  · rw [stated] at reads
    obtain ⟨mappings, sameSets, otherReads⟩ :=
      exists_readsMappings_of_haveSameOperations texts otherTexts same reads
    rw [← stated other] at otherReads
    exact ⟨mappings, sameSets, isReadAs_of_readsMappings agree isRead otherReads⟩

/-- Only the sets of operations matter that an operation mapping names: whatever the order, the
repetitions, the second names and the form, the document is planned and compiled to the same. -/
theorem plannedAlike_of_haveSameOperations
    (isPlace : IsMappingPlace section_)
    (isDocument : IsDocumentOf section_ raw)
    {entry other : Mapping}
    (texts : HasTextNames entry)
    (otherTexts : HasTextNames other)
    (same : HaveSameOperations entry other)
    {parsed : Parsed}
    (isParsed : parse (raw entry) = .ok parsed)
    (known : ListsKnownRawOperations parsed.document.mappings) :
    ∃ document, parse (raw other) = .ok ⟨document, parsed.settings⟩ ∧
      Assembly.PlannedAlike parsed.settings parsed.document document := by
  obtain ⟨key, -, isOpen⟩ := exists_isOpenUnder_of_isMappingPlace isPlace
  obtain ⟨document, isParsedToo, mappings, sameSets, rfl⟩ :=
    exists_parse_of_parseMetadata isDocument isOpen
      (fun first second => ∃ mappings,
        List.Forall₂ OperationMapping.SameSets first.mappings mappings ∧
          second = { first with mappings := mappings })
      (fun document => ⟨document.mappings, forall₂_sameSets_refl _, rfl⟩)
      (fun document isRead => by
        obtain ⟨mappings, sameSets, isReadToo⟩ :=
          exists_parseMetadata_of_haveSameOperations isPlace texts otherTexts same isRead
        exact ⟨_, isReadToo, mappings, sameSets, rfl⟩)
      isParsed
  exact ⟨_, isParsedToo, Assembly.plannedAlike_of_sameSets sameSets known parsed.settings⟩

/-- Users with operations that are listed: one of them under two names, and a raw one. -/
def listedUsers : Mapping :=
  named [("model", .text "User"),
    ("operations", .texts ["findMany", "create", "findRaw", "createOne"])]

/-- Users with operations that are keys, beside one that stands for none and one without a value. -/
def keyedUsers : Mapping :=
  named [("model", .text "User"), ("plural", .text "users"), ("createOne", .text "createOneUser"),
    ("deleteMany", .null), ("findRaw", .text "findUserRaw"), ("watch", .text "watchUser"),
    ("findMany", .text "findManyUser")]

/-- A section with one model, the arguments of a raw operation on it, and an operation mapping. -/
def userSection (entry : Mapping) : Mapping :=
  (named [("provider", .text "mongodb"), ("models", .list [.object [("name", .text "User")]]),
    ("inputObjectTypes", .list [.object [("name", .text "findUserRaw")]])]).put
      "modelOperations" (.list [.mapping entry])

def userSource (entry : Mapping) : Mapping :=
  Mapping.put [] "metadata" (.mapping (userSection entry))

theorem isNamedBy_listedUsers :
    IsNamedBy listedUsers ["findMany", "create", "findRaw", "createOne"] [] :=
  ⟨⟨_, rfl, rfl⟩, rfl⟩

theorem isNamedBy_keyedUsers :
    IsNamedBy keyedUsers ["createOne", "findRaw", "watch", "findMany"] [] :=
  ⟨⟨_, rfl, rfl⟩, rfl⟩

theorem haveSameOperations_users :
    HaveSameOperations listedUsers keyedUsers where
  model := rfl
  operations operation := by
    rw [hasOperation_iff isNamedBy_listedUsers, hasOperation_iff isNamedBy_keyedUsers]
    cases operation <;> decide
  rawOperations name := by
    rw [namesRaw_iff_of_isNamedBy isNamedBy_listedUsers,
      namesRaw_iff_of_isNamedBy isNamedBy_keyedUsers]
    rfl

/-- It makes no difference whether the operations of users are listed or keys. -/
theorem plannedAlike_of_haveSameOperations_users :
    IsMappingPlace userSection ∧ IsDocumentOf userSection userSource ∧
      HasTextNames listedUsers ∧ HasTextNames keyedUsers ∧
        HaveSameOperations listedUsers keyedUsers ∧
          ∃ parsed, parse (userSource listedUsers) = .ok parsed ∧
            ListsKnownRawOperations parsed.document.mappings ∧
              ∃ document, parse (userSource keyedUsers) = .ok ⟨document, parsed.settings⟩ ∧
                Assembly.PlannedAlike parsed.settings parsed.document document := by
  have isPlace : IsMappingPlace userSection := .own _ [] []
  have isDocument : IsDocumentOf userSection userSource := .metadata []
  have texts : HasTextNames listedUsers := hasTextNames_iff.mpr ⟨_, _, isNamedBy_listedUsers⟩
  have otherTexts : HasTextNames keyedUsers := hasTextNames_iff.mpr ⟨_, _, isNamedBy_keyedUsers⟩
  have isParsed :
      parse (userSource listedUsers) =
        .ok ⟨⟨.mongodb, [], [⟨"User", []⟩], [], [⟨"findUserRaw", []⟩],
          [⟨"User", [.findMany, .createOne], ["findRaw"]⟩], none⟩, Settings.default⟩ := by
    decide +kernel
  have known :
      ListsKnownRawOperations [⟨"User", [.findMany, .createOne], ["findRaw"]⟩] := by
    simp [ListsKnownRawOperations, Operation.rawNames]
  exact ⟨isPlace, isDocument, texts, otherTexts, haveSameOperations_users, _, isParsed, known,
    plannedAlike_of_haveSameOperations isPlace isDocument texts otherTexts haveSameOperations_users
      isParsed known⟩

end Places

end ZodSchemas.Source
