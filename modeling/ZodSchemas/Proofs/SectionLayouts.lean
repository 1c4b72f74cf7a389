import ZodSchemas.Proofs.SectionReading

namespace ZodSchemas.Source

/-!
# Layouts of a section

What a section holds may lie in nested sections or flat, one beside the other.
Whatever it is, the introspection layout and the flat layout are read alike: as
the same document, or with the same fault.  In the flat layout a value that is
stated comes before a nested one, and of all enumerations the first one of each
name is there.
-/

open Data
open Data.Mapping
open Metadata
open Decode

section Names

/-- The name of an item, by which it can be told from others. -/
def fixedName (item : Value) : Except Fault Value := do
  let name ← nameOf item
  if name.isFixed then .ok name else .error .notFixed

/-- Whether an item has one of some names. -/
def isNamedAmong (names : List Value) (item : Value) : Bool :=
  match fixedName item with
  | .ok name => names.any name.same
  | .error _ => false

/-- Whether an item has the name of another one. -/
def hasNameOf (item other : Value) : Bool :=
  match fixedName other with
  | .ok name => isNamedAmong [name] item
  | .error _ => false

/-- The first item of each name, and all items without one. -/
def firstOfEachName (items : List Value) : List Value :=
  items.eraseDupsBy hasNameOf

theorem firstByName_cons
    (seen : List Value)
    (item : Value)
    (rest : List Value) :
    firstByName seen (item :: rest) =
      (fixedName item >>= fun name =>
        if seen.any name.same then firstByName seen rest
        else (firstByName (name :: seen) rest).map (item :: ·)) := by
  rw [firstByName, fixedName, nameOf]
  cases entries item with
  | error fault =>
      rfl
  | ok fields =>
      change (if !((fields.get? "name").getD .null).isFixed then _ else _) =
        ((if ((fields.get? "name").getD .null).isFixed then _ else _) >>= _)
      cases ((fields.get? "name").getD .null).isFixed with
      | false =>
          rfl
      | true =>
          rfl

theorem firstByName_cons_of_error
    {item : Value}
    {fault : Fault}
    (isFault : fixedName item = .error fault)
    (seen rest : List Value) :
    firstByName seen (item :: rest) = .error fault := by
  rw [firstByName_cons, isFault]
  rfl

theorem firstByName_cons_of_name
    {item name : Value}
    (isName : fixedName item = .ok name)
    (seen rest : List Value) :
    firstByName seen (item :: rest) =
      if seen.any name.same then firstByName seen rest
      else (firstByName (name :: seen) rest).map (item :: ·) := by
  rw [firstByName_cons, isName]
  rfl

theorem isNamedAmong_of_name
    {item name : Value}
    (isName : fixedName item = .ok name)
    (names : List Value) :
    isNamedAmong names item = names.any name.same := by
  rw [isNamedAmong, isName]

/-- Items with a name that has been seen may as well be left out at once. -/
theorem firstByName_append
    (seen further items : List Value) :
    firstByName (seen ++ further) items =
      firstByName seen (items.filter (isNamedAmong further · = false)) := by
  induction items generalizing seen with
  | nil =>
      rfl
  | cons item rest inductionHypothesis =>
      cases isName : fixedName item with
      | error fault =>
          have unnamed : isNamedAmong further item = false := by
            rw [isNamedAmong, isName]
          rw [List.filter_cons_of_pos (by simpa using unnamed), firstByName_cons_of_error isName,
            firstByName_cons_of_error isName]
      | ok name =>
          have named := isNamedAmong_of_name isName further
          rw [firstByName_cons_of_name isName, List.any_append]
          cases isFurther : further.any name.same with
          | true =>
              rw [isFurther] at named
              rw [List.filter_cons_of_neg (by simp [named]), Bool.or_true, if_pos rfl,
                inductionHypothesis]
          | false =>
              rw [isFurther] at named
              rw [List.filter_cons_of_pos (by simp [named]), firstByName_cons_of_name isName,
                Bool.or_false, ← List.cons_append, inductionHypothesis, inductionHypothesis]

theorem mem_of_mem_eraseDupsBy
    {isRepeated : α → α → Bool}
    {items : List α}
    {item : α}
    (member : item ∈ items.eraseDupsBy isRepeated) :
    item ∈ items := by
  match items with
  | [] =>
      exact member
  | first :: rest =>
      rw [List.eraseDupsBy_cons, List.mem_cons] at member
      rcases member with rfl | later
      · exact .head _
      · exact .tail _ (List.mem_of_mem_filter (mem_of_mem_eraseDupsBy later))
termination_by items.length
decreasing_by exact Nat.lt_succ_of_le (List.length_filter_le _ _)

/-- Once only the first item of each name is there, reading them leaves out no further one. -/
theorem firstByName_firstOfEachName
    (items : List Value) :
    firstByName [] (firstOfEachName items) = firstByName [] items := by
  match items with
  | [] =>
      rfl
  | item :: rest =>
      rw [firstOfEachName, List.eraseDupsBy_cons]
      cases isName : fixedName item with
      | error fault =>
          rw [firstByName_cons_of_error isName, firstByName_cons_of_error isName]
      | ok name =>
          have unnamed (other : Value) : hasNameOf other item = isNamedAmong [name] other := by
            rw [hasNameOf, isName]
          -- Both sides go on with the items that do not have the name of the first one; a second
          -- filter of the items that are left leaves all of them.
          have others := firstByName_firstOfEachName (rest.filter (isNamedAmong [name] · = false))
          have allOthers :
              (firstOfEachName (rest.filter (isNamedAmong [name] · = false))).filter
                (isNamedAmong [name] · = false) =
                  firstOfEachName (rest.filter (isNamedAmong [name] · = false)) := by
            rw [List.filter_eq_self]
            exact fun other member => (List.mem_filter.mp (mem_of_mem_eraseDupsBy member)).2
          simp only [unnamed]
          rw [firstByName_cons_of_name isName, firstByName_cons_of_name isName]
          change (firstByName ([] ++ [name]) (firstOfEachName _)).map _ =
            (firstByName ([] ++ [name]) _).map _
          rw [firstByName_append, firstByName_append, allOthers, others]
termination_by items.length
decreasing_by exact Nat.lt_succ_of_le (List.length_filter_le _ _)

end Names

section Layouts

/-- The entries that are there. -/
def present (entries : List (String × Option Value)) : Mapping :=
  entries.filterMap fun entry => entry.2.map fun value => (.text entry.1, value)

@[simp]
theorem get?_present_nil
    (key : String) :
    (present []).get? key = none :=
  rfl

@[simp]
theorem get?_present_cons
    (name : String)
    (value : Option Value)
    (rest : List (String × Option Value))
    (key : String) :
    (present ((name, value) :: rest)).get? key =
      if name = key then value.or ((present rest).get? key) else (present rest).get? key := by
  cases value with
  | none =>
      exact (ite_self _).symm
  | some value =>
      exact (get?_cons (.text name) value (present rest) key).trans (by simp)

/-- Types of a nested section: those of the host and those of the models, or all in one list. -/
inductive TypeListing where
  | byOrigin (host own : Option (List Value))
  | together (items : List Value)

namespace TypeListing

def value : TypeListing → Value
  | .byOrigin host own =>
      .mapping (present [("prisma", host.map .list), ("model", own.map .list)])
  | .together items => .list items

/-- All types of a listing, those of the host first. -/
def items : TypeListing → List Value
  | .byOrigin host own => host.getD [] ++ own.getD []
  | .together items => items

end TypeListing

/-- The types of a listing, if there is one. -/
def itemsOf (listing : Option TypeListing) : List Value :=
  (listing.map (·.items)).getD []

/-- The section of the models, with the enumerations beside them. -/
structure ModelSection where
  models : Option (List Value)
  enums : Option (List Value)

def ModelSection.entries (listed : ModelSection) : Mapping :=
  present [("models", listed.models.map .list), ("enums", listed.enums.map .list)]

/-- The section of the types: composites and further enumerations. -/
structure TypeSection where
  composites : Option TypeListing
  enums : Option TypeListing

def TypeSection.entries (listed : TypeSection) : Mapping :=
  present [
    ("inputObjectTypes", listed.composites.map (·.value)),
    ("enumTypes", listed.enums.map (·.value))]

/-- What a section holds: values that it states itself, and nested sections. -/
structure Content where
  provider : Option Value
  previewFeatures : Option Value
  models : Option Value
  enums : Option (List Value)
  composites : Option Value
  mappings : Option Value
  aggregateSupport : Option Value
  /-- The section of the data source, which may state a provider. -/
  datasource : Option (Option Value)
  datamodel : Option ModelSection
  schema : Option TypeSection
  /-- The section of the mappings, which may list them. -/
  mappingSection : Option (Option (List Value))

namespace Content

variable (content : Content)

/-- The introspection layout: what is stated, and then the nested sections. -/
def introspected : Mapping :=
  present [
    ("provider", content.provider),
    ("previewFeatures", content.previewFeatures),
    ("models", content.models),
    ("enums", content.enums.map .list),
    ("inputObjectTypes", content.composites),
    ("modelOperations", content.mappings),
    ("aggregateSupport", content.aggregateSupport),
    ("datasource", content.datasource.map fun provider =>
      .mapping (present [("provider", provider)])),
    ("datamodel", content.datamodel.map fun listed => .mapping listed.entries),
    ("schema", content.schema.map fun listed => .mapping listed.entries),
    ("mappings", content.mappingSection.map fun listed =>
      .mapping (present [("modelOperations", listed.map .list)]))]

/-- All enumerations: those that are stated, those of the models, and those of the types. -/
def allEnums : List Value :=
  content.enums.getD [] ++ (content.datamodel.bind (·.enums)).getD []
    ++ itemsOf (content.schema.bind (·.enums))

/-- The flat layout: what is stated, or else what a nested section lists. -/
def flat : Mapping :=
  present [
    ("provider", content.provider.or content.datasource.join),
    ("previewFeatures", content.previewFeatures),
    ("models", content.models.or (content.datamodel.map fun listed =>
      .list (listed.models.getD []))),
    ("enums", some (.list (firstOfEachName content.allEnums))),
    ("inputObjectTypes", content.composites.or (content.schema.map fun listed =>
      .list (itemsOf listed.composites))),
    ("modelOperations", content.mappings.or (content.mappingSection.map fun listed =>
      .list (listed.getD []))),
    ("aggregateSupport", content.aggregateSupport)]

/-- A document with a section in the introspection layout. -/
def introspectedSource (config : Option Value) : Mapping :=
  present [("dmmf", some (.mapping content.introspected)), ("config", config)]

/-- A document with a section in the flat layout. -/
def flatSource (config : Option Value) : Mapping :=
  present [("metadata", some (.mapping content.flat)), ("config", config)]

end Content

end Layouts

section Contents

variable (content : Content)

theorem listAt_present_cons
    (name : String)
    (items : Option (List Value))
    (rest : List (String × Option Value))
    (unlisted : (present rest).get? name = none) :
    listAt (present ((name, items.map .list) :: rest)) name = .list (items.getD []) := by
  rw [listAt, get?_present_cons, if_pos rfl, unlisted, Option.or_none]
  cases items <;> rfl

theorem byOrigin_value
    (listing : Option TypeListing) :
    byOrigin ((listing.map (·.value)).getD (.mapping [])) = .ok (.list (itemsOf listing)) := by
  rcases listing with _ | ⟨_ | host, _ | own⟩ | items <;> rfl

theorem nestedProvider?_introspected :
    nestedProvider? content.introspected = content.datasource.join := by
  rw [nestedProvider?, nested?, Content.introspected]
  cases content.datasource <;> simp [Value.entries?]

theorem nested?_introspected_datamodel :
    nested? content.introspected "datamodel" = content.datamodel.map (·.entries) := by
  rw [nested?, Content.introspected]
  cases content.datamodel <;> simp [Value.entries?]

theorem nested?_introspected_schema :
    nested? content.introspected "schema" = content.schema.map (·.entries) := by
  rw [nested?, Content.introspected]
  cases content.schema <;> simp [Value.entries?]

theorem nestedModels?_introspected :
    nestedModels? content.introspected =
      content.datamodel.map fun listed => .list (listed.models.getD []) := by
  rw [nestedModels?, nested?_introspected_datamodel, Option.map_map]
  refine congrArg (Option.map · _) (funext fun listed => ?_)
  exact listAt_present_cons "models" listed.models _ (by simp)

theorem nestedMappings?_introspected :
    nestedMappings? content.introspected =
      content.mappingSection.map fun listed => .list (listed.getD []) := by
  rw [nestedMappings?, nested?, Content.introspected]
  rcases content.mappingSection with _ | _ | listed <;> simp [Value.entries?, listAt]

theorem nestedComposites?_introspected :
    nestedComposites? content.introspected =
      .ok (content.schema.map fun listed => .list (itemsOf listed.composites)) := by
  rw [nestedComposites?, nested?_introspected_schema]
  cases content.schema with
  | none =>
      rfl
  | some listed =>
      simp [TypeSection.entries, typesAt, byOrigin_value, Except.map]

theorem modelEnums_introspected :
    modelEnums content.introspected = .ok ((content.datamodel.bind (·.enums)).getD []) := by
  rw [modelEnums, nested?_introspected_datamodel]
  cases content.datamodel with
  | none =>
      rfl
  | some listed =>
      cases listed.enums <;> simp [ModelSection.entries, listAt] <;> rfl

theorem typeEnums_introspected :
    typeEnums content.introspected = .ok (itemsOf (content.schema.bind (·.enums))) := by
  rw [typeEnums, nested?_introspected_schema]
  cases content.schema with
  | none =>
      rfl
  | some listed =>
      simp [TypeSection.entries, typesAt, byOrigin_value]
      rfl

/-- The enumerations of the introspection layout are those from all places. -/
theorem enumItems_introspected :
    enumItems content.introspected = .ok content.allEnums := by
  refine enumItems_eq_ok_iff.mpr
    ⟨_, _, _, ?_, modelEnums_introspected content, typeEnums_introspected content, rfl⟩
  cases stated : content.enums <;> simp [listAt, Content.introspected, stated] <;> rfl

theorem nested?_flat
    {key : String}
    (isSection : key ∈ nestedSections) :
    nested? content.flat key = none := by
  simp only [nestedSections, List.mem_cons, List.not_mem_nil, or_false] at isSection
  rcases isSection with rfl | rfl | rfl | rfl <;> simp [nested?, Content.flat]

theorem enumItems_flat :
    enumItems content.flat = .ok (firstOfEachName content.allEnums) := by
  refine enumItems_eq_ok_iff.mpr
    ⟨firstOfEachName content.allEnums, [], [], ?_, ?_, ?_, by simp⟩
  · simp [listAt, Content.flat]
    rfl
  · rw [modelEnums, nested?_flat content (by decide)]
  · rw [typeEnums, nested?_flat content (by decide)]

theorem nestedComposites?_flat :
    nestedComposites? content.flat = .ok none := by
  rw [nestedComposites?, nested?_flat content (by decide)]

/-- Outside of the keys of nested sections and of what they supply, both layouts have the same
values. -/
theorem get?_introspected_of_unsupplied
    {key : String}
    (isNoSection : key ∉ nestedSections)
    (unsupplied : key ∉ suppliedKeys) :
    content.introspected.get? key = content.flat.get? key := by
  simp only [nestedSections, suppliedKeys, List.mem_cons, not_or] at isNoSection unsupplied
  simp [Content.introspected, Content.flat, isNoSection, unsupplied, Ne.symm]

/-- Once nested sections have supplied their values, both layouts have the same ones, enumerations
aside. -/
theorem agreeOutside_of_isLifted
    {lifted other : Mapping}
    (isLifted : IsLifted content.introspected
      (content.schema.map fun listed => .list (itemsOf listed.composites)) lifted)
    (isOther : IsLifted content.flat none other) :
    AgreeOutside ["enums"] lifted other := by
  intro key isNoEnum
  by_cases isSection : key ∈ nestedSections
  · rw [isLifted.nested key isSection, isOther.nested key isSection]
  · by_cases supplied : key ∈ suppliedKeys
    · simp only [suppliedKeys, List.mem_cons, List.not_mem_nil, or_false] at supplied isNoEnum
      rcases supplied with rfl | rfl | same | rfl | rfl
      · rw [isLifted.provider, isOther.provider, nestedProvider?_introspected, nestedProvider?,
          nested?_flat content (by decide)]
        simp [Content.introspected, Content.flat]
      · rw [isLifted.models, isOther.models, nestedModels?_introspected, nestedModels?,
          nested?_flat content (by decide)]
        simp [Content.introspected, Content.flat]
      · exact absurd same isNoEnum
      · rw [isLifted.composites, isOther.composites]
        simp [Content.introspected, Content.flat]
      · rw [isLifted.mappings, isOther.mappings, nestedMappings?_introspected, nestedMappings?,
          nested?_flat content (by decide)]
        simp [Content.introspected, Content.flat]
    · rw [isLifted.others key isSection supplied, isOther.others key isSection supplied,
        get?_introspected_of_unsupplied content isSection supplied]

end Contents

section Readings

variable {lifted other first second : Mapping} {items kept : List Value}

theorem mergeEnums_of_error
    (lists : Lists lifted items)
    {fault : Fault}
    (isFault : firstByName [] items = .error fault) :
    mergeEnums lifted = .error fault := by
  unfold Lists listAt at lists
  unfold mergeEnums
  cases stated : lifted.get? "enums" with
  | none =>
      rw [stated] at lists
      cases lists
      contradiction
  | some listed =>
      rw [stated, Option.getD_some] at lists
      dsimp only
      rw [lists]
      change (firstByName [] items >>= _) = _
      rw [isFault]
      rfl

/-- Merging leaves the first enumeration of each name, and nothing else changes. -/
theorem exists_mergeEnums_of_ok
    (lists : Lists lifted items)
    (areKept : firstByName [] items = .ok kept) :
    ∃ merged, mergeEnums lifted = .ok merged ∧ AgreeOutside ["enums"] lifted merged ∧
      listAt merged "enums" = .list kept := by
  unfold Lists listAt at lists
  unfold mergeEnums
  cases stated : lifted.get? "enums" with
  | none =>
      rw [stated] at lists
      cases lists
      cases areKept
      refine ⟨lifted, rfl, fun _ _ => rfl, ?_⟩
      rw [listAt, stated]
      rfl
  | some listed =>
      rw [stated, Option.getD_some] at lists
      refine ⟨lifted.put "enums" (.list kept), ?_, agreeOutside_put (by decide) _ _, ?_⟩
      · simp only [bind_eq_ok_iff]
        exact ⟨items, lists, kept, areKept, rfl⟩
      · rw [listAt, get?_put, if_pos rfl]
        rfl

/-- No enumerations are read as an empty list of them. -/
theorem optional_enums_eq
    (listed : listAt first "enums" = .list kept) :
    Decode.optional (.single "enums") [] (Decode.list enumType) first =
      (Decode.list enumType (.list kept)).below (.key "enums") := by
  rw [Decode.optional, FieldName.find?, FieldName.single]
  unfold listAt at listed
  cases stated : first.get? "enums" with
  | none =>
      rw [stated] at listed
      cases listed
      rfl
  | some value =>
      rw [stated] at listed
      cases listed
      rfl

theorem documentFields_of_listed
    (agree : AgreeOutside ["enums"] first second)
    (firstLists : listAt first "enums" = .list kept)
    (secondLists : listAt second "enums" = .list kept) :
    documentFields first = documentFields second := by
  have sameEnums := (optional_enums_eq firstLists).trans (optional_enums_eq secondLists).symm
  have same (name : FieldName)
      (unread : name.document ∉ ["enums"] ∧ name.plain ∉ ["enums"]) {α : Type} (absent : α)
      (decode : Value → Decoded α) :=
    optional_congr agree unread absent decode
  simp only [documentFields, sameEnums, same (.single "provider") (by decide),
    same ⟨"previewFeatures", "preview_features"⟩ (by decide), same (.single "models") (by decide),
    same ⟨"inputObjectTypes", "input_object_types"⟩ (by decide),
    same ⟨"modelOperations", "model_operations"⟩ (by decide),
    same ⟨"aggregateSupport", "aggregate_support"⟩ (by decide)]

theorem listAt_enums_of_canonicalMappings
    {merged flat : Mapping}
    (isFlat : canonicalMappings merged = .ok flat) :
    listAt flat "enums" = listAt merged "enums" := by
  rw [listAt, listAt, get?_of_canonicalMappings isFlat (by decide)]

/-- Read a section once its nested sections have supplied their values. -/
def readLifted (lifted : Mapping) : Except Fault Document :=
  mergeEnums lifted >>= canonicalMappings >>= fun flat =>
    accept .invalidMetadata (Decode.document (.mapping flat))

theorem parseMetadata_eq_readLifted
    {data : Mapping}
    (isLift : lift data = .ok lifted) :
    parseMetadata data = readLifted lifted := by
  rw [parseMetadata, flatten_eq_bind_lift, isLift]
  rfl

/-- Mappings are read alike that have the same values, and enumerations of which the same ones are
left. -/
theorem readLifted_congr
    {others : List Value}
    (agree : AgreeOutside ["enums"] lifted other)
    (lists : Lists lifted items)
    (othersList : Lists other others)
    (sameKept : firstByName [] items = firstByName [] others) :
    readLifted lifted = readLifted other := by
  unfold readLifted
  cases areKept : firstByName [] items with
  | error fault =>
      rw [mergeEnums_of_error lists areKept, mergeEnums_of_error othersList (sameKept ▸ areKept)]
  | ok kept =>
      obtain ⟨merged, isMerged, keeps, mergedLists⟩ := exists_mergeEnums_of_ok lists areKept
      obtain ⟨otherMerged, isOtherMerged, otherKeeps, otherLists⟩ :=
        exists_mergeEnums_of_ok othersList (sameKept ▸ areKept)
      have mergedAgree : AgreeOutside ["enums"] merged otherMerged := by
        intro key outside
        rw [← keeps key outside, agree key outside, otherKeeps key outside]
      have alike := canonicalMappings_alike (by decide) mergedAgree
      rw [isMerged, isOtherMerged]
      change (canonicalMappings merged >>= _) = (canonicalMappings otherMerged >>= _)
      generalize isFlat : canonicalMappings merged = flat at alike
      generalize isOtherFlat : canonicalMappings otherMerged = otherFlat at alike
      cases alike with
      | error fault =>
          rfl
      | ok flatAgree =>
          have flatLists := (listAt_enums_of_canonicalMappings isFlat).trans mergedLists
          have otherFlatLists := (listAt_enums_of_canonicalMappings isOtherFlat).trans otherLists
          change accept _ ((documentFields _).check _) = accept _ ((documentFields _).check _)
          rw [documentFields_of_listed flatAgree flatLists otherFlatLists]

/-- A section is read alike in both layouts. -/
theorem parseMetadata_introspected
    (content : Content) :
    parseMetadata content.introspected = parseMetadata content.flat := by
  obtain ⟨lifted, isLift, lists, isLifted⟩ :=
    exists_lifted (enumItems_introspected content) (nestedComposites?_introspected content)
  obtain ⟨other, isOther, othersList, isOtherLifted⟩ :=
    exists_lifted (enumItems_flat content) (nestedComposites?_flat content)
  rw [parseMetadata_eq_readLifted isLift, parseMetadata_eq_readLifted isOther]
  exact readLifted_congr (agreeOutside_of_isLifted content isLifted isOtherLifted) lists othersList
    (firstByName_firstOfEachName content.allEnums).symm

/-- Whatever a section holds, a document with it in the introspection layout and one with it in the
flat layout are read as the same, or end in the same fault. -/
theorem parse_introspectedSource
    (content : Content)
    (config : Option Value) :
    parse (content.introspectedSource config) = parse (content.flatSource config) := by
  have sameSettings :
      settingsSection (content.introspectedSource config) =
        settingsSection (content.flatSource config) := by
    simp [settingsSection, Content.introspectedSource, Content.flatSource]
  have nestedSection :
      metadataSection? (content.introspectedSource config) = some content.introspected := by
    simp [metadataSection?, nested?, Content.introspectedSource, Value.entries?]
  have flatSection : metadataSection? (content.flatSource config) = some content.flat := by
    simp [metadataSection?, nested?, Content.flatSource, Value.entries?]
  rw [parse, parse, nestedSection, flatSection, sameSettings]
  dsimp only
  rw [parseMetadata_introspected]

end Readings

end ZodSchemas.Source
