import ZodSchemas.Proofs.Interruptions
import ZodSchemas.Proofs.SectionLayouts

namespace ZodSchemas.Source

/-!
# Well-shaped sections

Before a section is read as a document it is flattened, and that takes lists and
objects apart without a look at what they are.  A section is well-shaped if this
succeeds: what is listed has parts, each enumeration is an object with a name that
can be compared, each operation mapping is an object with lists of such names, and
no enumeration that is kept has a value without a name.  All else that may be wrong
with a section is reported.
-/

open Data
open Data.Mapping
open Metadata
open Decode
open Decode.Decoded

section Shapes

/-- A value whose parts can be taken one by one. -/
def HasParts (value : Value) : Prop :=
  value.parts?.isSome = true

/-- A value whose parts can be taken one by one, and each has a property. -/
def ListsEach (holds : Value → Prop) (value : Value) : Prop :=
  ∃ items, value.parts? = some items ∧ ∀ item ∈ items, holds item

/-- Where types are listed by their origins, each of the lists has parts. -/
def HasOrigins (types : Value) : Prop :=
  ∀ origins, types = .mapping origins →
    HasParts (listAt origins "prisma") ∧ HasParts (listAt origins "model")

/-- The types that a nested section has under a key. -/
def typesUnder (section_ : Mapping) (key : String) : Value :=
  (section_.get? key).getD (.mapping [])

/-- An enumeration is an object, and its name can be compared with others. -/
def HasFixedName (item : Value) : Prop :=
  ∃ fields : Mapping, item = .mapping fields ∧ ((fields.get? "name").getD .null).isFixed = true

/-- A list of names that can be compared. -/
def ListsNames (value : Value) : Prop :=
  ListsEach (·.isFixed = true) value

/-- The operations that a mapping lists, or the empty list. -/
def listedOperations (mapping : Mapping) : Value :=
  Value.orElse (mapping.get? "operations") fun _ => .list []

/-- The raw operations that a mapping lists under either spelling, or the empty list. -/
def listedRaw (mapping : Mapping) : Value :=
  Value.orElse (mapping.get? "rawOperations") fun _ =>
    Value.orElse (mapping.get? "raw_operations") fun _ => .list []

/-- An operation mapping is an object, and the names in its lists can be compared. -/
def IsMappable (item : Value) : Prop :=
  ∃ mapping, item = .mapping mapping ∧
    ListsNames (listedOperations mapping) ∧ ListsNames (listedRaw mapping)

/-- The operation mappings of a section, its own ones or the nested ones. -/
def statedMappings? (data : Mapping) : Option Value :=
  ((data.get? "modelOperations").or (nestedMappings? data)).or (data.get? "model_operations")

/-- There are no operation mappings, or each of them is one. -/
def AreMappable (stated : Option Value) : Prop :=
  ∀ listed, stated = some listed → listed ≠ .null → ListsEach IsMappable listed

/-- A section that can be flattened, with values of enumerations that can be. -/
@[mk_iff]
structure IsWellShaped (data : Mapping) : Prop where
  ownEnums : HasParts (listAt data "enums")
  modelEnums :
    ∀ models, nested? data "datamodel" = some models → HasParts (listAt models "enums")
  composites :
    ∀ types, nested? data "schema" = some types → HasOrigins (typesUnder types "inputObjectTypes")
  typeEnums :
    ∀ types, nested? data "schema" = some types →
      HasOrigins (typesUnder types "enumTypes") ∧ HasParts (typesUnder types "enumTypes")
  names : ∀ items, enumItems data = .ok items → ∀ item ∈ items, HasFixedName item
  values :
    ∀ items, enumItems data = .ok items → ∀ item ∈ firstOfEachName items, HasNamedValues item
  mappings : AreMappable (statedMappings? data)

end Shapes

section Parts

theorem parts_eq_ok_iff
    {value : Value}
    {items : List Value} :
    parts value = .ok items ↔ value.parts? = some items := by
  unfold parts
  cases value.parts? <;> simp

theorem exists_parts_iff
    {value : Value} :
    (∃ items, parts value = .ok items) ↔ HasParts value := by
  simp only [parts_eq_ok_iff, HasParts, Option.isSome_iff_exists]

theorem entries_eq_ok_iff
    {value : Value}
    {fields : Mapping} :
    entries value = .ok fields ↔ value = .mapping fields := by
  cases value <;> simp [entries, Value.entries?]

theorem exists_bind_iff
    {first : Except ε α}
    {next : α → Except ε β} :
    (∃ result, first >>= next = .ok result) ↔
      ∃ value, first = .ok value ∧ ∃ result, next value = .ok result := by
  simp only [bind_eq_ok_iff]
  exact ⟨fun ⟨result, value, isValue, isResult⟩ => ⟨value, isValue, result, isResult⟩,
    fun ⟨value, isValue, result, isResult⟩ => ⟨result, value, isValue, isResult⟩⟩

/-- A step that is taken for each item succeeds if none of them is refused. -/
theorem exists_mapM_iff
    {step : β → Except ε α}
    {items : List β} :
    (∃ results, items.mapM step = .ok results) ↔
      ∀ item ∈ items, ∃ result, step item = .ok result := by
  induction items with
  | nil =>
      exact iff_of_true ⟨[], rfl⟩ (List.forall_mem_nil _)
  | cons item rest inductionHypothesis =>
      rw [List.mapM_cons, exists_bind_iff, List.forall_mem_cons, ← inductionHypothesis,
        ← exists_and_right]
      refine exists_congr fun result => and_congr_right fun _ => ?_
      rw [exists_bind_iff]
      exact exists_congr fun others => and_iff_left ⟨_, rfl⟩

/-- Types are put together unless they have an origin that is no list. -/
theorem exists_byOrigin_iff
    {types : Value} :
    (∃ result, byOrigin types = .ok result) ↔ HasOrigins types := by
  unfold HasOrigins
  cases types with
  | mapping origins =>
      simp only [byOrigin, exists_bind_iff, Except.ok.injEq, exists_eq', and_true,
        Value.mapping.injEq, forall_eq']
      simp only [exists_and_right, ← exists_parts_iff]
  | scalar | set | pair | list =>
      simp [byOrigin]

/-- What is put together is a list. -/
theorem exists_parts_of_byOrigin_iff
    {types : Value} :
    (∃ items, byOrigin types >>= parts = .ok items) ↔ HasOrigins types ∧ HasParts types := by
  have taken (types : Value) (asItIs : byOrigin types = .ok types) :
      (∃ items, byOrigin types >>= parts = .ok items) ↔ HasParts types := by
    rw [asItIs]
    exact exists_parts_iff
  cases types with
  | mapping origins =>
      have keys : HasParts (.mapping origins) := rfl
      rw [and_iff_left keys, ← exists_byOrigin_iff, exists_bind_iff]
      constructor
      · rintro ⟨result, isResult, -⟩
        exact ⟨result, isResult⟩
      · rintro ⟨result, isResult⟩
        refine ⟨result, isResult, exists_parts_iff.mpr ?_⟩
        simp only [byOrigin, bind_eq_ok_iff] at isResult
        obtain ⟨_, -, _, -, ⟨⟩⟩ := isResult
        rfl
  | scalar | set | pair | list =>
      rw [taken _ rfl, iff_and_self]
      rintro - _ ⟨⟩

theorem exists_modelEnums_iff
    {data : Mapping} :
    (∃ items, modelEnums data = .ok items) ↔
      ∀ models, nested? data "datamodel" = some models → HasParts (listAt models "enums") := by
  unfold modelEnums
  cases nested? data "datamodel" <;> simp [exists_parts_iff]

theorem exists_typeEnums_iff
    {data : Mapping} :
    (∃ items, typeEnums data = .ok items) ↔
      ∀ types, nested? data "schema" = some types →
        HasOrigins (typesUnder types "enumTypes") ∧ HasParts (typesUnder types "enumTypes") := by
  unfold typeEnums
  cases nested? data "schema" with
  | none =>
      simp
  | some types =>
      simp only [Option.some.injEq, forall_eq']
      exact exists_parts_of_byOrigin_iff

theorem exists_nestedComposites_iff
    {data : Mapping} :
    (∃ composites, nestedComposites? data = .ok composites) ↔
      ∀ types, nested? data "schema" = some types →
        HasOrigins (typesUnder types "inputObjectTypes") := by
  unfold nestedComposites?
  cases nested? data "schema" with
  | none =>
      simp
  | some types =>
      simp only [exceptMap_eq_ok_iff, Option.some.injEq, forall_eq', ← exists_byOrigin_iff]
      constructor
      · rintro ⟨_, result, isResult, -⟩
        exact ⟨result, isResult⟩
      · rintro ⟨result, isResult⟩
        exact ⟨_, result, isResult, rfl⟩

/-- All enumerations can be listed if those of each place can be. -/
theorem exists_enumItems_iff
    {data : Mapping} :
    (∃ items, enumItems data = .ok items) ↔
      HasParts (listAt data "enums") ∧ (∃ items, modelEnums data = .ok items) ∧
        ∃ items, typeEnums data = .ok items := by
  simp only [enumItems, exists_bind_iff, Except.ok.injEq, exists_eq', and_true]
  simp only [exists_and_right, ← exists_parts_iff]

end Parts

section Names

/-- Repetitions can be left out exactly if each item has a key that can be compared. -/
theorem exists_keepFirst_iff
    {keyOf : Value → Except Fault Value}
    {seen items : List Value} :
    (∃ kept, keepFirst keyOf seen items = .ok kept) ↔
      ∀ item ∈ items, ∃ key, keyOf item = .ok key ∧ key.isFixed = true := by
  induction items generalizing seen with
  | nil =>
      simp [keepFirst]
  | cons item rest inductionHypothesis =>
      rw [List.forall_mem_cons]
      simp only [keepFirst_cons_eq_ok_iff]
      constructor
      · rintro ⟨kept, key, isKey, fixed, ⟨-, inRest⟩ | ⟨-, others, inRest, -⟩⟩
        · exact ⟨⟨key, isKey, fixed⟩, inductionHypothesis.mp ⟨kept, inRest⟩⟩
        · exact ⟨⟨key, isKey, fixed⟩, inductionHypothesis.mp ⟨others, inRest⟩⟩
      · rintro ⟨⟨key, isKey, fixed⟩, later⟩
        cases isSeen : seen.any key.same with
        | true =>
            obtain ⟨kept, inRest⟩ := inductionHypothesis.mpr later
            exact ⟨kept, key, isKey, fixed, .inl ⟨isSeen, inRest⟩⟩
        | false =>
            obtain ⟨others, inRest⟩ := inductionHypothesis.mpr later
            exact ⟨item :: others, key, isKey, fixed, .inr ⟨isSeen, others, inRest, rfl⟩⟩

theorem hasFixedName_iff
    {item : Value} :
    HasFixedName item ↔ ∃ name, nameOf item = .ok name ∧ name.isFixed = true := by
  unfold HasFixedName nameOf
  simp only [bind_eq_ok_iff, entries_eq_ok_iff]
  constructor
  · rintro ⟨fields, rfl, fixed⟩
    exact ⟨_, ⟨fields, rfl, rfl⟩, fixed⟩
  · rintro ⟨_, ⟨fields, rfl, ⟨⟩⟩, fixed⟩
    exact ⟨fields, rfl, fixed⟩

theorem exists_firstByName_iff
    {items : List Value} :
    (∃ kept, firstByName [] items = .ok kept) ↔ ∀ item ∈ items, HasFixedName item := by
  simp only [firstByName_eq_keepFirst, exists_keepFirst_iff, hasFixedName_iff]

theorem exists_fixedName_iff
    {item : Value} :
    (∃ name, fixedName item = .ok name) ↔ HasFixedName item := by
  rw [hasFixedName_iff, fixedName, exists_bind_iff]
  refine exists_congr fun name => and_congr_right fun _ => ?_
  cases name.isFixed <;> simp

/-- The items that are kept are the first ones of their names. -/
theorem firstByName_eq_firstOfEachName
    {items : List Value}
    (named : ∀ item ∈ items, HasFixedName item) :
    firstByName [] items = .ok (firstOfEachName items) := by
  match items with
  | [] =>
      rfl
  | item :: rest =>
      obtain ⟨name, isName⟩ := exists_fixedName_iff.mpr (named item (.head _))
      have sameName (other : Value) : hasNameOf other item = isNamedAmong [name] other := by
        rw [hasNameOf, isName]
      -- What follows is taken without repetitions of the first name, so it is shorter but no part
      -- of the list, and the recursion is on the length.
      have othersNamed :
          ∀ other ∈ rest.filter (isNamedAmong [name] · = false), HasFixedName other :=
        fun other member => named other (.tail _ (List.mem_of_mem_filter member))
      have others := firstByName_eq_firstOfEachName othersNamed
      rw [firstByName_cons_of_name isName, firstOfEachName, List.eraseDupsBy_cons]
      change (firstByName ([] ++ [name]) rest).map _ = _
      rw [firstByName_append, others]
      simp only [sameName]
      rfl
termination_by items.length
decreasing_by exact Nat.lt_succ_of_le (List.length_filter_le _ _)

end Names

section Mappings

/-- The keys that a mapping has beside the reserved ones are names that can be compared. -/
theorem exists_operationNames_iff
    {mapping : Mapping} :
    (∃ names, operationNames mapping = .ok names ∧ ∀ name ∈ names, name.isFixed = true) ↔
      ListsNames (listedOperations mapping) := by
  unfold operationNames ListsNames ListsEach
  simp only [bind_eq_ok_iff, parts_eq_ok_iff]
  constructor
  · rintro ⟨_, ⟨listed, areListed, ⟨⟩⟩, fixed⟩
    exact ⟨listed, areListed, fun name member => fixed name (List.mem_append_left _ member)⟩
  · rintro ⟨listed, areListed, fixed⟩
    refine ⟨_, ⟨listed, areListed, rfl⟩, fun name member => ?_⟩
    rcases List.mem_append.mp member with inListed | isKey
    · exact fixed name inListed
    · obtain ⟨entry, -, rfl⟩ := List.mem_map.mp isKey
      rfl

theorem exists_canonicalOperation_iff
    {name : Value} :
    (∃ operation, canonicalOperation? name = .ok operation) ↔ name.isFixed = true := by
  cases name with
  | scalar value =>
      cases value <;> simp [canonicalOperation?, Value.isFixed]
  | pair first second =>
      unfold canonicalOperation?
      by_cases fixed : (Value.pair first second).isFixed = true <;> simp [fixed]
  | set | list | mapping =>
      simp [canonicalOperation?, Value.isFixed]

theorem isFixed_of_isRawName
    {name : Value}
    (raw : isRawName name = true) :
    name.isFixed = true := by
  cases name with
  | scalar value =>
      rfl
  | set | pair | list | mapping =>
      contradiction

/-- A mapping can be brought to its canonical form exactly if it is one. -/
theorem exists_canonicalMapping_iff
    {item : Value} :
    (∃ canonical, canonicalMapping item = .ok canonical) ↔ IsMappable item := by
  have rawOnes (listed names : List Value) :
      (∃ kept, withoutRepetitions [] (listed ++ names.filter isRawName) = .ok kept) ↔
        ∀ name ∈ listed, name.isFixed = true := by
    simp only [withoutRepetitions_eq_keepFirst, exists_keepFirst_iff, Except.ok.injEq,
      exists_eq_left', List.forall_mem_append, List.mem_filter]
    exact and_iff_left fun name ⟨_, raw⟩ => isFixed_of_isRawName raw
  have otherOnes (names : List Value) :
      (∃ operations, (names.filter (!isRawName ·)).mapM canonicalOperation? = .ok operations) ↔
        ∀ name ∈ names, name.isFixed = true := by
    simp only [exists_mapM_iff, exists_canonicalOperation_iff, List.mem_filter]
    refine forall_congr' fun name => ⟨fun fixed member => ?_, fun fixed member => fixed member.1⟩
    cases raw : isRawName name with
    | true =>
        exact isFixed_of_isRawName raw
    | false =>
        exact fixed ⟨member, by rw [raw]; rfl⟩
  unfold IsMappable
  constructor
  · rintro ⟨canonical, isCanonical⟩
    simp only [canonicalMapping, bind_eq_ok_iff, entries_eq_ok_iff] at isCanonical
    obtain ⟨mapping, rfl, listed, areListed, names, areNames, operations, areOperations, raw,
      areRaw, -⟩ := isCanonical
    have fixed := (otherOnes names).mp ⟨operations, areOperations⟩
    exact ⟨mapping, rfl, exists_operationNames_iff.mp ⟨names, areNames, fixed⟩, listed,
      parts_eq_ok_iff.mp areListed, (rawOnes listed names).mp ⟨raw, areRaw⟩⟩
  · rintro ⟨mapping, rfl, listsOperations, listed, areListed, rawFixed⟩
    obtain ⟨names, areNames, fixed⟩ := exists_operationNames_iff.mpr listsOperations
    obtain ⟨operations, areOperations⟩ := (otherOnes names).mpr fixed
    obtain ⟨raw, areRaw⟩ := (rawOnes listed names).mpr rawFixed
    simp only [canonicalMapping, bind_eq_ok_iff, entries_eq_ok_iff]
    exact ⟨_, mapping, rfl, listed, parts_eq_ok_iff.mpr areListed, names, areNames, operations,
      areOperations, raw, areRaw, rfl⟩

theorem exists_canonicalMappings_iff
    {merged : Mapping} :
    (∃ flat, canonicalMappings merged = .ok flat) ↔
      AreMappable ((merged.get? "modelOperations").or (merged.get? "model_operations")) := by
  rw [canonicalMappings_eq]
  unfold AreMappable
  generalize (merged.get? "modelOperations").or (merged.get? "model_operations") = stated
  split
  · simp
  · refine iff_of_true ⟨_, rfl⟩ ?_
    rintro _ ⟨⟩ notNull
    exact absurd rfl notNull
  · rename_i listed notNull
    have isListed : listed ≠ .null := notNull
    simp only [exists_bind_iff, exists_mapM_iff, exists_canonicalMapping_iff, Except.ok.injEq,
      exists_eq', and_true, Option.some.injEq, forall_eq', isListed, ne_eq, not_false_eq_true,
      forall_const, ListsEach, parts_eq_ok_iff]

end Mappings

section Flattening

variable {data lifted merged flat : Mapping} {items : List Value}

/-- Only a mapping whose enumerations can be listed and told apart can be merged. -/
theorem exists_lists_of_mergeEnums
    (isMerged : mergeEnums lifted = .ok merged) :
    ∃ items, Lists lifted items ∧ ∀ item ∈ items, HasFixedName item := by
  rcases cases_of_mergeEnums isMerged with ⟨missing, rfl⟩ |
    ⟨enums, items, kept, found, areItems, areKept, rfl⟩
  · refine ⟨[], ?_, List.forall_mem_nil _⟩
    rw [Lists, listAt, missing]
    rfl
  · refine ⟨items, ?_, ?_⟩
    · rw [Lists, listAt, found]
      exact areItems
    · rw [← firstByName_eq_keepFirst] at areKept
      exact exists_firstByName_iff.mp ⟨kept, areKept⟩

/-- What a section is flattened from: it can be lifted, its enumerations can be told apart, and its
mappings are ones. -/
structure IsFlattenedFrom (data : Mapping) (items : List Value) : Prop where
  listed : enumItems data = .ok items
  composites : ∃ nested, nestedComposites? data = .ok nested
  names : ∀ item ∈ items, HasFixedName item
  mappings : AreMappable (statedMappings? data)

theorem isFlattenedFrom_of_flatten
    (isFlat : flatten data = .ok flat) :
    ∃ items, IsFlattenedFrom data items := by
  rw [flatten_eq_bind_lift, bind_eq_ok_iff] at isFlat
  obtain ⟨lifted, isLift, isFlat⟩ := isFlat
  obtain ⟨merged, isMerged, isFlat⟩ := bind_eq_ok_iff.mp isFlat
  obtain ⟨items, lists, named⟩ := exists_lists_of_mergeEnums isMerged
  obtain ⟨areItems, nested, isNested, isLifted⟩ := isLifted_of_lift isLift lists
  have mappable := exists_canonicalMappings_iff.mp ⟨flat, isFlat⟩
  rw [listed_mappings_eq isLifted isMerged] at mappable
  exact ⟨items, areItems, ⟨nested, isNested⟩, named, mappable⟩

/-- A section with all that is asked of it can be flattened, and the first enumeration of each name
is left. -/
theorem exists_flatten
    (source : IsFlattenedFrom data items) :
    ∃ flat, flatten data = .ok flat ∧ listAt flat "enums" = .list (firstOfEachName items) := by
  obtain ⟨nested, isNested⟩ := source.composites
  obtain ⟨lifted, isLift, lists, isLifted⟩ := exists_lifted source.listed isNested
  have areKept := firstByName_eq_firstOfEachName source.names
  obtain ⟨merged, isMerged, -, mergedLists⟩ := exists_mergeEnums_of_ok lists areKept
  have mappable := source.mappings
  rw [statedMappings?, ← listed_mappings_eq isLifted isMerged] at mappable
  obtain ⟨flat, isFlat⟩ := exists_canonicalMappings_iff.mpr mappable
  refine ⟨flat, ?_, (listAt_enums_of_canonicalMappings isFlat).trans mergedLists⟩
  simp only [flatten_eq_bind_lift, bind_eq_ok_iff]
  exact ⟨lifted, isLift, merged, isMerged, isFlat⟩

/-- A section is well-shaped if it can be flattened and no enumeration that is left has a value
without a name. -/
theorem isWellShaped_iff_flattened :
    IsWellShaped data ↔
      ∃ items, IsFlattenedFrom data items ∧
        ∀ item ∈ firstOfEachName items, HasNamedValues item := by
  constructor
  · intro shaped
    obtain ⟨items, areItems⟩ := exists_enumItems_iff.mpr
      ⟨shaped.ownEnums, exists_modelEnums_iff.mpr shaped.modelEnums,
        exists_typeEnums_iff.mpr shaped.typeEnums⟩
    exact ⟨items, ⟨areItems, exists_nestedComposites_iff.mpr shaped.composites,
      shaped.names items areItems, shaped.mappings⟩, shaped.values items areItems⟩
  · rintro ⟨items, source, named⟩
    obtain ⟨own, ofModels, ofTypes⟩ := exists_enumItems_iff.mp ⟨items, source.listed⟩
    have unique (others : List Value) (areOthers : enumItems data = .ok others) : others = items :=
      Except.ok.inj (areOthers.symm.trans source.listed)
    exact {
      ownEnums := own
      modelEnums := exists_modelEnums_iff.mp ofModels
      composites := exists_nestedComposites_iff.mp source.composites
      typeEnums := exists_typeEnums_iff.mp ofTypes
      names := fun others areOthers => unique others areOthers ▸ source.names
      values := fun others areOthers => unique others areOthers ▸ named
      mappings := source.mappings }

end Flattening

section Faults

/-- A result whose fault, if it is one, is not reported. -/
def IsSilent (result : Except Fault α) : Prop :=
  ∀ fault, result = .error fault → fault.isReported = false

namespace IsSilent

theorem ok
    (value : α) :
    IsSilent (.ok value) := by
  rintro _ ⟨⟩

theorem error
    {fault : Fault}
    (unreported : fault.isReported = false) :
    IsSilent (.error fault : Except Fault α) := by
  rintro _ ⟨⟩
  exact unreported

theorem bind
    {first : Except Fault α}
    {next : α → Except Fault β}
    (silent : IsSilent first)
    (silentToo : ∀ value, IsSilent (next value)) :
    IsSilent (first >>= next) := by
  cases first with
  | ok value =>
      exact silentToo value
  | error fault =>
      exact .error (silent fault rfl)

theorem map
    {result : Except Fault α}
    (silent : IsSilent result)
    (transform : α → β) :
    IsSilent (result.map transform) := by
  cases result with
  | ok value =>
      exact .ok _
  | error fault =>
      exact .error (silent fault rfl)

theorem mapM
    {step : β → Except Fault α}
    (silent : ∀ item, IsSilent (step item))
    (items : List β) :
    IsSilent (items.mapM step) := by
  induction items with
  | nil =>
      exact .ok []
  | cons item rest inductionHypothesis =>
      rw [List.mapM_cons]
      exact (silent item).bind fun _ => inductionHypothesis.bind fun _ => .ok _

end IsSilent

theorem isSilent_parts
    (value : Value) :
    IsSilent (parts value) := by
  unfold parts
  split
  · exact .ok _
  · exact .error rfl

theorem isSilent_entries
    (value : Value) :
    IsSilent (entries value) := by
  unfold entries
  split
  · exact .ok _
  · exact .error rfl

theorem isSilent_appendEnums
    (enums : Value)
    (flat : Mapping) :
    IsSilent (appendEnums enums flat) :=
  (isSilent_parts _).bind fun _ => (isSilent_parts _).bind fun _ => .ok _

theorem isSilent_byOrigin
    (types : Value) :
    IsSilent (byOrigin types) := by
  unfold byOrigin
  split
  · exact (isSilent_parts _).bind fun _ => (isSilent_parts _).bind fun _ => .ok _
  · exact .ok _

theorem isSilent_keepFirst
    {keyOf : Value → Except Fault Value}
    (silent : ∀ item, IsSilent (keyOf item))
    (seen items : List Value) :
    IsSilent (keepFirst keyOf seen items) := by
  induction items generalizing seen with
  | nil =>
      exact .ok []
  | cons item rest inductionHypothesis =>
      rw [keepFirst]
      refine (silent item).bind fun key => ?_
      split
      · exact .error rfl
      · split
        · exact inductionHypothesis seen
        · exact (inductionHypothesis _).bind fun _ => .ok _

theorem isSilent_canonicalMapping
    (item : Value) :
    IsSilent (canonicalMapping item) := by
  have operation (name : Value) : IsSilent (canonicalOperation? name) := by
    unfold canonicalOperation?
    split
    · exact .ok _
    · split
      · exact .ok _
      · exact .error rfl
  refine (isSilent_entries _).bind fun mapping => (isSilent_parts _).bind fun listed => ?_
  refine ((isSilent_parts _).bind fun _ => .ok _).bind fun names => ?_
  refine (IsSilent.mapM operation _).bind fun operations => ?_
  refine IsSilent.bind ?_ fun _ => .ok _
  rw [withoutRepetitions_eq_keepFirst]
  exact isSilent_keepFirst IsSilent.ok _ _

/-- No fault of flattening is reported. -/
theorem isSilent_flatten
    (data : Mapping) :
    IsSilent (flatten data) := by
  have models (flat : Mapping) : IsSilent (liftModels data flat) := by
    unfold liftModels
    split
    · exact isSilent_appendEnums _ _
    · exact .ok _
  have types (flat : Mapping) : IsSilent (liftTypes data flat) := by
    unfold liftTypes
    split
    · exact (isSilent_byOrigin _).bind fun _ => (isSilent_byOrigin _).bind fun _ =>
        isSilent_appendEnums _ _
    · exact .ok _
  have merging (flat : Mapping) : IsSilent (mergeEnums flat) := by
    unfold mergeEnums
    split
    · refine (isSilent_parts _).bind fun items => IsSilent.bind ?_ fun _ => .ok _
      rw [firstByName_eq_keepFirst]
      exact isSilent_keepFirst (fun _ => (isSilent_entries _).bind fun _ => .ok _) _ _
    · exact .ok _
  have mappings (flat : Mapping) : IsSilent (canonicalMappings flat) := by
    rw [canonicalMappings_eq]
    split
    · exact .ok _
    · exact .ok _
    · exact (isSilent_parts _).bind fun _ =>
        (IsSilent.mapM isSilent_canonicalMapping _).bind fun _ => .ok _
  exact (models _).bind fun _ => (types _).bind fun _ => (merging _).bind fun _ => mappings _

/-- A result that is there, or whose fault is reported. -/
def IsAnswered (result : Except Fault α) : Prop :=
  ∀ fault, result = .error fault → fault.isReported = true

theorem not_isAnswered_of_isSilent
    {result : Except Fault α}
    (silent : IsSilent result)
    (none : ¬ ∃ value, result = .ok value) :
    ¬ IsAnswered result := by
  intro answered
  cases result with
  | ok value =>
      exact none ⟨value, rfl⟩
  | error fault =>
      have reported := answered fault rfl
      rw [silent fault rfl] at reported
      contradiction

/-- What is read is answered unless the reading is interrupted. -/
theorem isAnswered_accept_iff
    {fault : List Issue → Fault}
    (reported : ∀ issues, (fault issues).isReported = true)
    {result : Decoded α} :
    IsAnswered (accept fault result) ↔ result ≠ .interrupted := by
  unfold IsAnswered accept
  cases result with
  | accepted value =>
      simp
  | rejected issues =>
      simp [reported]
  | interrupted =>
      simp [Fault.isReported]

/-- Reading goes on, and ends in an answer, if both of its parts do. -/
theorem isAnswered_bind_iff
    {first : Except Fault α}
    {next : α → Except Fault β}
    (answered : ∀ value, IsAnswered (next value)) :
    IsAnswered (first >>= next) ↔ IsAnswered first := by
  cases first with
  | ok value =>
      exact iff_of_true (answered value) (by rintro _ ⟨⟩)
  | error fault =>
      exact ⟨fun answer _ same => answer _ (congrArg _ (Except.error.inj same)),
        fun answer _ same => answer _ (congrArg _ (Except.error.inj same))⟩

/-- A section is read, or what is wrong with it is reported, exactly if it is well-shaped. -/
theorem isAnswered_parseMetadata_iff
    {data : Mapping} :
    IsAnswered (parseMetadata data) ↔ IsWellShaped data := by
  by_cases source : ∃ items, IsFlattenedFrom data items
  · obtain ⟨items, source⟩ := source
    obtain ⟨flat, isFlat, kept⟩ := exists_flatten source
    have reading :
        parseMetadata data = accept .invalidMetadata (Decode.document (.mapping flat)) := by
      rw [parseMetadata, isFlat]
      rfl
    rw [reading, isAnswered_accept_iff fun _ => rfl, ne_eq, document_eq_interrupted_iff,
      optional_enums_eq kept, below_eq_interrupted_iff, list_enumType_eq_interrupted_iff, not_not,
      isWellShaped_iff_flattened]
    constructor
    · exact fun named => ⟨items, source, named⟩
    · rintro ⟨others, otherSource, named⟩
      obtain rfl := Except.ok.inj (otherSource.listed.symm.trans source.listed)
      exact named
  · -- No fault of the flattening is one that is reported.
    have notFlat : ¬ ∃ flat, flatten data = .ok flat := by
      rintro ⟨flat, isFlat⟩
      exact source (isFlattenedFrom_of_flatten isFlat)
    refine iff_of_false ?_ fun shaped => ?_
    · intro answered
      refine not_isAnswered_of_isSilent (isSilent_flatten data) notFlat fun fault isFault => ?_
      refine answered fault ?_
      rw [parseMetadata, isFault]
      rfl
    · obtain ⟨items, source', -⟩ := isWellShaped_iff_flattened.mp shaped
      exact source ⟨items, source'⟩

/-- Keys that a section is not read through do not change whether it is well-shaped. -/
theorem isWellShaped_congr
    {keys : List String}
    (apart : ∀ key ∈ sectionKeys, key ∉ keys)
    {data other : Mapping}
    (agree : AgreeOutside keys data other) :
    IsWellShaped data ↔ IsWellShaped other := by
  have enums : listAt data "enums" = listAt other "enums" := by
    rw [listAt, listAt, agree "enums" (apart "enums" (by decide))]
  have models := nested?_congr agree (apart "datamodel" (by decide))
  have types := nested?_congr agree (apart "schema" (by decide))
  have items : enumItems data = enumItems other :=
    enumItems_congr agree (apart "enums" (by decide)) (apart "datamodel" (by decide))
      (apart "schema" (by decide))
  have mappings : statedMappings? data = statedMappings? other := by
    rw [statedMappings?, statedMappings?,
      nestedMappings?_congr agree (apart "mappings" (by decide)),
      agree "modelOperations" (apart "modelOperations" (by decide)),
      agree "model_operations" (apart "model_operations" (by decide))]
  rw [isWellShaped_iff, isWellShaped_iff, enums, models, types, items, mappings]

/-- The metadata section of a document, if it has one, is well-shaped. -/
def IsWellShapedSource (raw : Mapping) : Prop :=
  ∀ data, metadataSection? raw = some data → IsWellShaped data

/-- A document is read, or what is wrong with it is reported, exactly if its metadata section is
well-shaped. -/
theorem isAnswered_parse_iff
    {raw : Mapping} :
    IsAnswered (parse raw) ↔ IsWellShapedSource raw := by
  unfold parse IsWellShapedSource
  cases metadataSection? raw with
  | none =>
      simp [IsAnswered, Fault.isReported]
  | some data =>
      simp only [Option.some.injEq, forall_eq', ← isAnswered_parseMetadata_iff]
      refine isAnswered_bind_iff fun document => (isAnswered_bind_iff fun settings => ?_).mpr ?_
      · rintro _ ⟨⟩
      · exact (isAnswered_accept_iff fun _ => rfl).mpr (settings_never _)

end Faults

end ZodSchemas.Source
