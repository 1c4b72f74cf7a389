import Mathlib.Tactic.MkIffOfInductiveProp
import ZodSchemas.Proofs.SectionFrames

namespace ZodSchemas.Source

/-!
# What the fields of a document are read from

Each field of a document is read from one value.  What a section states in
document spelling comes first, then what its nested sections supply, and last
what it states in plain spelling.  Enumerations are put together from all places
instead.  A section is read as a document exactly if each field of the document
is what its value is read as.
-/

open Data
open Data.Mapping
open Metadata
open Decode
open Decode.Decoded

section Supplies

/-- The provider that the nested sections state. -/
def nestedProvider? (data : Mapping) : Option Value :=
  (nested? data "datasource").bind (·.get? "provider")

/-- The models that the nested sections list. -/
def nestedModels? (data : Mapping) : Option Value :=
  (nested? data "datamodel").map (listAt · "models")

/-- The operation mappings that the nested sections list. -/
def nestedMappings? (data : Mapping) : Option Value :=
  (nested? data "mappings").map (listAt · "modelOperations")

/-- The value under a key of the nested types, put together from its origins. -/
def typesAt (types : Mapping) (key : String) : Except Fault Value :=
  byOrigin ((types.get? key).getD (.mapping []))

/-- The composites that the nested sections list. -/
def nestedComposites? (data : Mapping) : Except Fault (Option Value) :=
  match nested? data "schema" with
  | some types => (typesAt types "inputObjectTypes").map some
  | none => .ok none

/-- The enumerations beside the models. -/
def modelEnums (data : Mapping) : Except Fault (List Value) :=
  match nested? data "datamodel" with
  | some models => parts (listAt models "enums")
  | none => .ok []

/-- The enumerations beside the composites. -/
def typeEnums (data : Mapping) : Except Fault (List Value) :=
  match nested? data "schema" with
  | some types => typesAt types "enumTypes" >>= parts
  | none => .ok []

/-- The enumerations of a section: its own ones, those beside the models, and those beside the
composites. -/
def enumItems (data : Mapping) : Except Fault (List Value) := do
  let own ← parts (listAt data "enums")
  let ofModels ← modelEnums data
  let ofTypes ← typeEnums data
  .ok (own ++ ofModels ++ ofTypes)

section Agreement

variable {keys : List String} {data other : Mapping} (agree : AgreeOutside keys data other)

include agree

theorem nestedProvider?_congr
    (beside : "datasource" ∉ keys) :
    nestedProvider? data = nestedProvider? other := by
  rw [nestedProvider?, nestedProvider?, nested?_congr agree beside]

theorem nestedModels?_congr
    (beside : "datamodel" ∉ keys) :
    nestedModels? data = nestedModels? other := by
  rw [nestedModels?, nestedModels?, nested?_congr agree beside]

theorem nestedMappings?_congr
    (beside : "mappings" ∉ keys) :
    nestedMappings? data = nestedMappings? other := by
  rw [nestedMappings?, nestedMappings?, nested?_congr agree beside]

theorem nestedComposites?_congr
    (beside : "schema" ∉ keys) :
    nestedComposites? data = nestedComposites? other := by
  rw [nestedComposites?, nestedComposites?, nested?_congr agree beside]

theorem enumItems_congr
    (besideOwn : "enums" ∉ keys)
    (besideModels : "datamodel" ∉ keys)
    (besideTypes : "schema" ∉ keys) :
    enumItems data = enumItems other := by
  rw [enumItems, enumItems, listAt, listAt, agree "enums" besideOwn, modelEnums, modelEnums,
    nested?_congr agree besideModels, typeEnums, typeEnums, nested?_congr agree besideTypes]

end Agreement

end Supplies

section Lifting

variable {data flat result : Mapping}

theorem get?_flatPart
    (data : Mapping)
    (key : String) :
    (flatPart data).get? key = if key ∈ nestedSections then none else data.get? key := by
  simp only [flatPart, nestedSections, List.foldl_cons, List.foldl_nil, get?_erase,
    List.mem_cons, List.not_mem_nil, or_false]
  by_cases isModels : key = "datamodel" <;> by_cases isTypes : key = "schema" <;>
    by_cases isMappings : key = "mappings" <;> by_cases isSource : key = "datasource" <;>
      simp_all [eq_comm]

theorem get?_putDefault_eq_or
    (mapping : Mapping)
    (name : String)
    (value : Value)
    (other : String) :
    (mapping.putDefault name value).get? other =
      (mapping.get? other).or (if name = other then some value else none) := by
  rw [get?_putDefault]
  split
  · rename_i same
    rw [same]
    cases mapping.get? other <;> rfl
  · rw [Option.or_none]

theorem get?_liftProvider
    (data flat : Mapping)
    (key : String) :
    (liftProvider data flat).get? key =
      (flat.get? key).or (if "provider" = key then nestedProvider? data else none) := by
  unfold liftProvider nestedProvider?
  split
  · rename_i provider found
    rw [get?_putDefault_eq_or, found]
  · rename_i missing
    rw [missing, ite_self, Option.or_none]

theorem get?_liftMappings
    (data flat : Mapping)
    (key : String) :
    (liftMappings data flat).get? key =
      (flat.get? key).or (if "modelOperations" = key then nestedMappings? data else none) := by
  unfold liftMappings nestedMappings?
  cases nested? data "mappings" with
  | some mappings =>
      exact get?_putDefault_eq_or flat _ _ key
  | none =>
      rw [Option.map_none, ite_self, Option.or_none]

/-- A mapping with a supplied value, where there is one, and then with all enumerations so far. -/
def withSupply (key : String) (supply : Option Value) (items : List Value) (flat : Mapping) :
    Mapping :=
  match supply with
  | some value => (flat.putDefault key value).put "enums" (.list items)
  | none => flat

theorem get?_withSupply
    (key : String)
    (supply : Option Value)
    (items : List Value)
    (flat : Mapping)
    {other : String}
    (isNoEnum : "enums" ≠ other) :
    (withSupply key supply items flat).get? other =
      (flat.get? other).or (if key = other then supply else none) := by
  cases supply with
  | some value =>
      rw [withSupply, get?_put, if_neg isNoEnum, get?_putDefault_eq_or]
  | none =>
      rw [withSupply, ite_self, Option.or_none]

theorem listAt_put_self
    (mapping : Mapping)
    (key : String)
    (value : Value) :
    listAt (mapping.put key value) key = value := by
  rw [listAt, get?_put, if_pos rfl, Option.getD_some]

theorem listAt_put_of_ne
    (mapping : Mapping)
    {key other : String}
    (apart : key ≠ other)
    (value : Value) :
    listAt (mapping.put key value) other = listAt mapping other := by
  rw [listAt, listAt, get?_put, if_neg apart]

/-- The enumerations of a mapping are taken one by one. -/
def Lists (flat : Mapping) (items : List Value) : Prop :=
  parts (listAt flat "enums") = .ok items

theorem lists_put
    (flat : Mapping)
    (items : List Value) :
    Lists (flat.put "enums" (.list items)) items := by
  rw [Lists, listAt_put_self]
  rfl

theorem Lists.unique
    {items others : List Value}
    (lists : Lists flat items)
    (alsoLists : Lists flat others) :
    items = others :=
  Except.ok.inj (lists.symm.trans alsoLists)

theorem lists_putDefault_iff
    {key : String}
    (isNoEnum : key ≠ "enums")
    (value : Value)
    {items : List Value} :
    Lists (flat.putDefault key value) items ↔ Lists flat items := by
  rw [Lists, Lists, listAt, listAt, get?_putDefault_eq_or, if_neg isNoEnum, Option.or_none]

theorem appendEnums_eq_ok_iff
    {enums : Value}
    {items : List Value} :
    appendEnums enums flat = .ok result ∧ Lists result items ↔
      ∃ own further, Lists flat own ∧ parts enums = .ok further ∧ own ++ further = items ∧
        flat.put "enums" (.list items) = result := by
  simp only [appendEnums, bind_eq_ok_iff]
  constructor
  · rintro ⟨⟨own, isOwn, further, isFurther, ⟨⟩⟩, lists⟩
    obtain rfl := lists.unique (lists_put flat _)
    exact ⟨own, further, isOwn, isFurther, rfl, rfl⟩
  · rintro ⟨own, further, isOwn, isFurther, rfl, rfl⟩
    exact ⟨⟨own, isOwn, further, isFurther, rfl⟩, lists_put flat _⟩

theorem liftModels_eq_ok_iff
    {items : List Value} :
    liftModels data flat = .ok result ∧ Lists result items ↔
      ∃ own further, Lists flat own ∧ modelEnums data = .ok further ∧ own ++ further = items ∧
        withSupply "models" (nestedModels? data) items flat = result := by
  unfold liftModels modelEnums nestedModels?
  cases nested? data "datamodel" with
  | some models =>
      simp only [appendEnums_eq_ok_iff, lists_putDefault_iff (by decide : "models" ≠ "enums")]
      rfl
  | none =>
      constructor
      · rintro ⟨⟨⟩, lists⟩
        exact ⟨items, [], lists, rfl, List.append_nil _, rfl⟩
      · rintro ⟨own, _, lists, ⟨⟩, rfl, rfl⟩
        rw [List.append_nil]
        exact ⟨rfl, lists⟩

theorem liftTypes_eq_ok_iff
    {items : List Value} :
    liftTypes data flat = .ok result ∧ Lists result items ↔
      ∃ composites own further, nestedComposites? data = .ok composites ∧ Lists flat own ∧
        typeEnums data = .ok further ∧ own ++ further = items ∧
        withSupply "inputObjectTypes" composites items flat = result := by
  unfold liftTypes nestedComposites? typeEnums
  cases nested? data "schema" with
  | some types =>
      have different : "inputObjectTypes" ≠ "enums" := by decide
      simp only [bind_eq_ok_iff, exceptMap_eq_ok_iff]
      constructor
      · rintro ⟨⟨composites, areComposites, enums, areEnums, isResult⟩, lists⟩
        obtain ⟨own, further, isOwn, isFurther, rfl, rfl⟩ :=
          appendEnums_eq_ok_iff.mp ⟨isResult, lists⟩
        exact ⟨_, own, further, ⟨composites, areComposites, rfl⟩,
          (lists_putDefault_iff different _).mp isOwn, ⟨enums, areEnums, isFurther⟩, rfl, rfl⟩
      · rintro ⟨_, own, further, ⟨composites, areComposites, rfl⟩, isOwn,
          ⟨enums, areEnums, isFurther⟩, rfl, rfl⟩
        obtain ⟨isResult, lists⟩ := appendEnums_eq_ok_iff.mpr
          ⟨own, further, (lists_putDefault_iff different composites).mpr isOwn, isFurther, rfl,
            rfl⟩
        exact ⟨⟨composites, areComposites, enums, areEnums, isResult⟩, lists⟩
  | none =>
      constructor
      · rintro ⟨⟨⟩, lists⟩
        exact ⟨none, items, [], rfl, lists, rfl, List.append_nil _, rfl⟩
      · rintro ⟨_, own, _, ⟨⟩, lists, ⟨⟩, rfl, rfl⟩
        rw [List.append_nil]
        exact ⟨rfl, lists⟩

/-- A section with what its nested sections supply. -/
def lift (data : Mapping) : Except Fault Mapping := do
  let flat ← liftModels data (liftProvider data (flatPart data))
  let flat ← liftTypes data flat
  .ok (liftMappings data flat)

theorem flatten_eq_bind_lift
    (data : Mapping) :
    flatten data = lift data >>= fun flat => mergeEnums flat >>= canonicalMappings := by
  simp only [flatten, lift, bind_assoc]
  rfl

/-- The keys whose values a nested section may supply, and the one of the enumerations. -/
def suppliedKeys : List String :=
  ["provider", "models", "enums", "inputObjectTypes", "modelOperations"]

/-- The values of a section once its nested sections have supplied theirs, enumerations aside. -/
structure IsLifted (data : Mapping) (composites : Option Value) (lifted : Mapping) : Prop where
  provider : lifted.get? "provider" = (data.get? "provider").or (nestedProvider? data)
  models : lifted.get? "models" = (data.get? "models").or (nestedModels? data)
  composites : lifted.get? "inputObjectTypes" = (data.get? "inputObjectTypes").or composites
  mappings :
    lifted.get? "modelOperations" = (data.get? "modelOperations").or (nestedMappings? data)
  nested : ∀ key ∈ nestedSections, lifted.get? key = none
  others : ∀ key, key ∉ nestedSections → key ∉ suppliedKeys → lifted.get? key = data.get? key

theorem isLifted_of_supplies
    (data : Mapping)
    (composites : Option Value)
    (items others : List Value) :
    IsLifted data composites
      (liftMappings data
        (withSupply "inputObjectTypes" composites items
          (withSupply "models" (nestedModels? data) others
            (liftProvider data (flatPart data))))) := by
  have values (key : String) (isNoEnum : "enums" ≠ key) :
      (liftMappings data
        (withSupply "inputObjectTypes" composites items
          (withSupply "models" (nestedModels? data) others
            (liftProvider data (flatPart data))))).get? key =
        ((((if key ∈ nestedSections then none else data.get? key).or
          (if "provider" = key then nestedProvider? data else none)).or
          (if "models" = key then nestedModels? data else none)).or
          (if "inputObjectTypes" = key then composites else none)).or
          (if "modelOperations" = key then nestedMappings? data else none) := by
    rw [get?_liftMappings, get?_withSupply _ _ _ _ isNoEnum, get?_withSupply _ _ _ _ isNoEnum,
      get?_liftProvider, get?_flatPart]
  constructor
  · simp [values, nestedSections]
  · simp [values, nestedSections]
  · simp [values, nestedSections]
  · simp [values, nestedSections]
  · intro key isNested
    have unsupplied : ∀ key ∈ nestedSections, key ∉ suppliedKeys := by
      decide
    have apart := unsupplied key isNested
    simp only [suppliedKeys, List.mem_cons, not_or] at apart
    simp [values, isNested, apart, Ne.symm]
  · intro key isNoSection unsupplied
    simp only [suppliedKeys, List.mem_cons, not_or] at unsupplied
    simp [values, isNoSection, unsupplied, Ne.symm]

theorem lists_liftProvider_flatPart_iff
    {items : List Value} :
    Lists (liftProvider data (flatPart data)) items ↔ parts (listAt data "enums") = .ok items := by
  rw [Lists, listAt, listAt, get?_liftProvider, get?_flatPart, if_neg (by decide),
    if_neg (by decide), Option.or_none]

theorem lists_liftMappings_iff
    {items : List Value} :
    Lists (liftMappings data flat) items ↔ Lists flat items := by
  rw [Lists, Lists, listAt, listAt, get?_liftMappings, if_neg (by decide), Option.or_none]

theorem enumItems_eq_ok_iff
    {items : List Value} :
    enumItems data = .ok items ↔
      ∃ own ofModels ofTypes, parts (listAt data "enums") = .ok own ∧
        modelEnums data = .ok ofModels ∧ typeEnums data = .ok ofTypes ∧
        own ++ ofModels ++ ofTypes = items := by
  simp only [enumItems, bind_eq_ok_iff]
  constructor
  · rintro ⟨own, isOwn, ofModels, areOfModels, ofTypes, areOfTypes, ⟨⟩⟩
    exact ⟨own, ofModels, ofTypes, isOwn, areOfModels, areOfTypes, rfl⟩
  · rintro ⟨own, ofModels, ofTypes, isOwn, areOfModels, areOfTypes, rfl⟩
    exact ⟨own, isOwn, ofModels, areOfModels, ofTypes, areOfTypes, rfl⟩

/-- Where all enumerations and composites can be listed, the nested sections supply theirs. -/
theorem exists_lifted
    {items : List Value}
    (areItems : enumItems data = .ok items)
    {composites : Option Value}
    (areComposites : nestedComposites? data = .ok composites) :
    ∃ lifted, lift data = .ok lifted ∧ Lists lifted items ∧ IsLifted data composites lifted := by
  obtain ⟨own, ofModels, ofTypes, isOwn, areOfModels, areOfTypes, rfl⟩ :=
    enumItems_eq_ok_iff.mp areItems
  obtain ⟨isWithModels, modelsList⟩ := liftModels_eq_ok_iff.mpr
    ⟨own, ofModels, lists_liftProvider_flatPart_iff.mpr isOwn, areOfModels, rfl, rfl⟩
  obtain ⟨isWithTypes, typesList⟩ := liftTypes_eq_ok_iff.mpr
    ⟨composites, own ++ ofModels, ofTypes, areComposites, modelsList, areOfTypes, rfl, rfl⟩
  refine ⟨_, ?_, lists_liftMappings_iff.mpr typesList, isLifted_of_supplies data composites _ _⟩
  simp only [lift, bind_eq_ok_iff]
  exact ⟨_, isWithModels, _, isWithTypes, rfl⟩

/-- What is lifted has the values of the section and of its nested sections. -/
theorem isLifted_of_lift
    {lifted : Mapping}
    (isLift : lift data = .ok lifted)
    {items : List Value}
    (lists : Lists lifted items) :
    enumItems data = .ok items ∧
      ∃ composites, nestedComposites? data = .ok composites ∧ IsLifted data composites lifted := by
  simp only [lift, bind_eq_ok_iff] at isLift
  obtain ⟨withModels, isWithModels, withTypes, isWithTypes, ⟨⟩⟩ := isLift
  obtain ⟨composites, listed, ofTypes, areComposites, modelsList, areOfTypes, rfl, rfl⟩ :=
    liftTypes_eq_ok_iff.mp ⟨isWithTypes, lists_liftMappings_iff.mp lists⟩
  obtain ⟨own, ofModels, isOwn, areOfModels, rfl, rfl⟩ :=
    liftModels_eq_ok_iff.mp ⟨isWithModels, modelsList⟩
  refine ⟨enumItems_eq_ok_iff.mpr ⟨own, ofModels, ofTypes, ?_, areOfModels, areOfTypes, rfl⟩,
    composites, areComposites, isLifted_of_supplies data composites _ _⟩
  exact lists_liftProvider_flatPart_iff.mp isOwn

end Lifting

section Fields

variable {data flat merged : Mapping} {document : Document}

/-- A value is read as a result, and no value as the one that stands for its absence. -/
def ReadsOr (decode : Value → Decoded α) (absent : α) (result : α) : Option Value → Prop
  | some value => decode value = .accepted result
  | none => result = absent

theorem find?_map_snd
    (name : FieldName)
    (entries : Mapping) :
    (name.find? entries).map (·.2) = (entries.get? name.document).or (entries.get? name.plain) := by
  unfold FieldName.find?
  cases entries.get? name.document <;> cases entries.get? name.plain <;> rfl

theorem optional_eq_accepted_iff
    {name : FieldName}
    {absent : α}
    {decode : Value → Decoded α}
    {entries : Mapping}
    {result : α} :
    Decode.optional name absent decode entries = .accepted result ↔
      ReadsOr decode absent result ((entries.get? name.document).or (entries.get? name.plain)) := by
  rw [← find?_map_snd, Decode.optional]
  cases name.find? entries with
  | some found =>
      exact below_eq_accepted_iff
  | none =>
      exact ⟨fun accepted => (Decoded.accepted.inj accepted).symm, fun same => congrArg _ same.symm⟩

/-- Operation mappings are read once each has been brought to its canonical form. -/
inductive ReadsMappings (mappings : List OperationMapping) : Option Value → Prop where
  | absent (nothing : mappings = []) :
      ReadsMappings mappings none
  | null (nothing : mappings = []) :
      ReadsMappings mappings (some .null)
  | listed
      {value : Value}
      {items canonical : List Value}
      (areItems : parts value = .ok items)
      (areCanonical : items.mapM canonicalMapping = .ok canonical)
      (areRead : Decode.list operationMapping (.list canonical) = .accepted mappings) :
      ReadsMappings mappings (some value)

/-- Enumerations are read once the first one of each name has been kept. -/
def ReadsEnums (data : Mapping) (enums : List EnumType) : Prop :=
  ∃ items kept, enumItems data = .ok items ∧ firstByName [] items = .ok kept ∧
    Decode.list enumType (.list kept) = .accepted enums

/-- What the fields of a document are read from in a section. -/
@[mk_iff]
structure IsReadAs (data : Mapping) (document : Document) : Prop where
  provider :
    ReadsOr (member Provider.all Provider.label) .postgresql document.provider
      ((data.get? "provider").or (nestedProvider? data))
  previewFeatures :
    ReadsOr (Decode.list text) [] document.previewFeatures
      ((data.get? "previewFeatures").or (data.get? "preview_features"))
  models :
    ReadsOr (Decode.list model) [] document.models
      ((data.get? "models").or (nestedModels? data))
  enums : ReadsEnums data document.enums
  composites :
    ∃ nested, nestedComposites? data = .ok nested ∧
      ReadsOr (Decode.list composite) [] document.composites
        (((data.get? "inputObjectTypes").or nested).or (data.get? "input_object_types"))
  mappings :
    ReadsMappings document.mappings
      (((data.get? "modelOperations").or (nestedMappings? data)).or
        (data.get? "model_operations"))
  aggregateSupport :
    ReadsOr (orNull (dictionary Decode.aggregateSupport)) none document.aggregateSupport
      ((data.get? "aggregateSupport").or (data.get? "aggregate_support"))
  namesApart : refuseDuplicates "model names" (document.models.map (·.name)) = none

theorem documentFields_eq_accepted_iff :
    documentFields flat = .accepted document ↔
      ReadsOr (member Provider.all Provider.label) .postgresql document.provider
          (flat.get? "provider") ∧
        ReadsOr (Decode.list text) [] document.previewFeatures
          ((flat.get? "previewFeatures").or (flat.get? "preview_features")) ∧
        ReadsOr (Decode.list model) [] document.models (flat.get? "models") ∧
        ReadsOr (Decode.list enumType) [] document.enums (flat.get? "enums") ∧
        ReadsOr (Decode.list composite) [] document.composites
          ((flat.get? "inputObjectTypes").or (flat.get? "input_object_types")) ∧
        ReadsOr (Decode.list operationMapping) [] document.mappings
          ((flat.get? "modelOperations").or (flat.get? "model_operations")) ∧
        ReadsOr (orNull (dictionary Decode.aggregateSupport)) none document.aggregateSupport
          ((flat.get? "aggregateSupport").or (flat.get? "aggregate_support")) := by
  have atSingle (name : String) :
      (flat.get? (FieldName.single name).document).or
        (flat.get? (FieldName.single name).plain) = flat.get? name :=
    Option.or_self
  simp only [documentFields, seq_eq_accepted_iff, map_eq_accepted_iff, optional_eq_accepted_iff,
    atSingle]
  constructor
  · rintro ⟨_, support, ⟨_, mappings, ⟨_, composites, ⟨_, enums, ⟨_, models, ⟨_, features,
      ⟨provider, isProvider, rfl⟩, areFeatures, rfl⟩, areModels, rfl⟩, areEnums, rfl⟩,
      areComposites, rfl⟩, areMappings, rfl⟩, isSupport, rfl⟩
    exact ⟨isProvider, areFeatures, areModels, areEnums, areComposites, areMappings, isSupport⟩
  · rintro ⟨isProvider, areFeatures, areModels, areEnums, areComposites, areMappings, isSupport⟩
    exact ⟨_, _, ⟨_, _, ⟨_, _, ⟨_, _, ⟨_, _, ⟨_, _, ⟨_, isProvider, rfl⟩, areFeatures, rfl⟩,
      areModels, rfl⟩, areEnums, rfl⟩, areComposites, rfl⟩, areMappings, rfl⟩, isSupport, rfl⟩

theorem get?_of_mergeEnums
    {lifted : Mapping}
    (isMerged : mergeEnums lifted = .ok merged)
    {key : String}
    (isNoEnum : "enums" ≠ key) :
    merged.get? key = lifted.get? key := by
  rcases cases_of_mergeEnums isMerged with ⟨-, rfl⟩ | ⟨_, _, kept, -, -, -, rfl⟩
  · rfl
  · rw [get?_put, if_neg isNoEnum]

/-- The enumerations that are read from a merged mapping are the first ones of each name. -/
theorem exists_merged_iff
    {lifted : Mapping}
    {enums : List EnumType} :
    (∃ merged, mergeEnums lifted = .ok merged ∧
        ReadsOr (Decode.list enumType) [] enums (merged.get? "enums")) ↔
      ∃ items kept, Lists lifted items ∧ firstByName [] items = .ok kept ∧
        Decode.list enumType (.list kept) = .accepted enums := by
  unfold mergeEnums Lists listAt
  cases stated : lifted.get? "enums" with
  | some listed =>
      simp only [bind_eq_ok_iff, Option.getD_some]
      constructor
      · rintro ⟨_, ⟨items, areItems, kept, areKept, ⟨⟩⟩, areRead⟩
        rw [get?_put, if_pos rfl] at areRead
        exact ⟨items, kept, areItems, areKept, areRead⟩
      · rintro ⟨items, kept, areItems, areKept, areRead⟩
        refine ⟨_, ⟨items, areItems, kept, areKept, rfl⟩, ?_⟩
        rw [get?_put, if_pos rfl]
        exact areRead
  | none =>
      constructor
      · rintro ⟨_, ⟨⟩, areRead⟩
        rw [stated] at areRead
        obtain rfl : enums = [] := areRead
        exact ⟨[], [], rfl, rfl, rfl⟩
      · rintro ⟨_, _, ⟨⟩, ⟨⟩, ⟨⟩⟩
        exact ⟨lifted, rfl, by rw [stated]; rfl⟩

theorem get?_of_canonicalMappings
    (isFlat : canonicalMappings merged = .ok flat)
    {key : String}
    (isNoMapping : ¬ (key = "modelOperations" ∨ key = "model_operations")) :
    flat.get? key = merged.get? key := by
  have unlisted : (withoutMappings merged).get? key = merged.get? key := by
    rw [get?_withoutMappings, if_neg isNoMapping]
  rcases cases_of_canonicalMappings isFlat with rfl | ⟨_, _, canonical, -, -, -, rfl⟩
  · exact unlisted
  · rw [get?_put, if_neg fun same => isNoMapping (.inl same.symm), unlisted]

theorem canonicalMappings_eq
    (merged : Mapping) :
    canonicalMappings merged =
      (match (merged.get? "modelOperations").or (merged.get? "model_operations") with
      | none | some .null => .ok (withoutMappings merged)
      | some value => do
          let items ← parts value
          let canonical ← items.mapM canonicalMapping
          .ok ((withoutMappings merged).put "modelOperations" (.list canonical))) :=
  rfl

/-- The mappings that are read from a flat mapping are the canonical ones. -/
theorem exists_canonical_iff
    {mappings : List OperationMapping} :
    (∃ flat, canonicalMappings merged = .ok flat ∧
        ReadsOr (Decode.list operationMapping) [] mappings
          ((flat.get? "modelOperations").or (flat.get? "model_operations"))) ↔
      ReadsMappings mappings
        ((merged.get? "modelOperations").or (merged.get? "model_operations")) := by
  have noneLeft :
      ((withoutMappings merged).get? "modelOperations").or
        ((withoutMappings merged).get? "model_operations") = none := by
    rw [get?_withoutMappings, get?_withoutMappings, if_pos (.inl rfl), if_pos (.inr rfl)]
    rfl
  have listed (canonical : List Value) :
      (((withoutMappings merged).put "modelOperations" (.list canonical)).get?
          "modelOperations").or
        (((withoutMappings merged).put "modelOperations" (.list canonical)).get?
          "model_operations") = some (.list canonical) := by
    rw [get?_put, if_pos rfl]
    rfl
  rw [canonicalMappings_eq]
  generalize (merged.get? "modelOperations").or (merged.get? "model_operations") = stated
  split
  · constructor
    · rintro ⟨_, ⟨⟩, areRead⟩
      rw [noneLeft] at areRead
      exact .absent areRead
    · rintro ⟨nothing⟩
      refine ⟨_, rfl, ?_⟩
      rw [noneLeft]
      exact nothing
  · constructor
    · rintro ⟨_, ⟨⟩, areRead⟩
      rw [noneLeft] at areRead
      exact .null areRead
    · rintro (_ | nothing | ⟨⟨⟩, -, -⟩)
      refine ⟨_, rfl, ?_⟩
      rw [noneLeft]
      exact nothing
  · rename_i value notNull
    simp only [bind_eq_ok_iff]
    constructor
    · rintro ⟨_, ⟨items, areItems, canonical, areCanonical, ⟨⟩⟩, areRead⟩
      rw [listed] at areRead
      exact .listed areItems areCanonical areRead
    · rintro (_ | nothing | ⟨areItems, areCanonical, areRead⟩)
      · exact absurd rfl notNull
      · refine ⟨_, ⟨_, areItems, _, areCanonical, rfl⟩, ?_⟩
        rw [listed]
        exact areRead

/-- Once a section is lifted, merged and canonical, its fields are those of the section and of its
nested sections. -/
theorem documentFields_iff_of_lifted
    {composites : Option Value}
    {lifted : Mapping}
    (isLifted : IsLifted data composites lifted)
    (isMerged : mergeEnums lifted = .ok merged)
    (isFlat : canonicalMappings merged = .ok flat) :
    documentFields flat = .accepted document ↔
      ReadsOr (member Provider.all Provider.label) .postgresql document.provider
          ((data.get? "provider").or (nestedProvider? data)) ∧
        ReadsOr (Decode.list text) [] document.previewFeatures
          ((data.get? "previewFeatures").or (data.get? "preview_features")) ∧
        ReadsOr (Decode.list model) [] document.models
          ((data.get? "models").or (nestedModels? data)) ∧
        ReadsOr (Decode.list enumType) [] document.enums (merged.get? "enums") ∧
        ReadsOr (Decode.list composite) [] document.composites
          (((data.get? "inputObjectTypes").or composites).or (data.get? "input_object_types")) ∧
        ReadsOr (Decode.list operationMapping) [] document.mappings
          ((flat.get? "modelOperations").or (flat.get? "model_operations")) ∧
        ReadsOr (orNull (dictionary Decode.aggregateSupport)) none document.aggregateSupport
          ((data.get? "aggregateSupport").or (data.get? "aggregate_support")) := by
  have atFlat (key : String)
      (isNoMapping : ¬ (key = "modelOperations" ∨ key = "model_operations"))
      (isNoEnum : "enums" ≠ key) :
      flat.get? key = lifted.get? key :=
    (get?_of_canonicalMappings isFlat isNoMapping).trans (get?_of_mergeEnums isMerged isNoEnum)
  have atEnums : flat.get? "enums" = merged.get? "enums" :=
    get?_of_canonicalMappings isFlat (by decide)
  rw [documentFields_eq_accepted_iff, atEnums,
    atFlat "provider" (by decide) (by decide), atFlat "previewFeatures" (by decide) (by decide),
    atFlat "preview_features" (by decide) (by decide), atFlat "models" (by decide) (by decide),
    atFlat "inputObjectTypes" (by decide) (by decide),
    atFlat "input_object_types" (by decide) (by decide),
    atFlat "aggregateSupport" (by decide) (by decide),
    atFlat "aggregate_support" (by decide) (by decide), isLifted.provider, isLifted.models,
    isLifted.composites, isLifted.others "previewFeatures" (by decide) (by decide),
    isLifted.others "preview_features" (by decide) (by decide),
    isLifted.others "input_object_types" (by decide) (by decide),
    isLifted.others "aggregateSupport" (by decide) (by decide),
    isLifted.others "aggregate_support" (by decide) (by decide)]

/-- The mappings of a section are listed under one of the spellings of their key, or nested. -/
theorem listed_mappings_eq
    {composites : Option Value}
    {lifted : Mapping}
    (isLifted : IsLifted data composites lifted)
    (isMerged : mergeEnums lifted = .ok merged) :
    (merged.get? "modelOperations").or (merged.get? "model_operations") =
      ((data.get? "modelOperations").or (nestedMappings? data)).or
        (data.get? "model_operations") := by
  rw [get?_of_mergeEnums isMerged (by decide), get?_of_mergeEnums isMerged (by decide),
    isLifted.mappings, isLifted.others "model_operations" (by decide) (by decide)]

/-- A section is read as a document exactly if each field is what its value is read as. -/
theorem parseMetadata_eq_ok_iff_isReadAs :
    parseMetadata data = .ok document ↔ IsReadAs data document := by
  rw [parseMetadata_eq_ok_iff]
  simp only [flatten_eq_bind_lift, bind_eq_ok_iff]
  constructor
  · rintro ⟨flat, ⟨lifted, isLift, merged, isMerged, isFlat⟩, inFields, namesApart⟩
    -- Only a merge that succeeds tells which enumerations the lifted mapping lists, and without
    -- them it is not known what was lifted.  So the enumerations come before the other fields.
    have enumsRead := (documentFields_eq_accepted_iff.mp inFields).2.2.2.1
    rw [get?_of_canonicalMappings isFlat (by decide)] at enumsRead
    obtain ⟨items, kept, lists, areKept, areEnums⟩ := exists_merged_iff.mp ⟨_, isMerged, enumsRead⟩
    obtain ⟨areItems, composites, isNested, isLifted⟩ := isLifted_of_lift isLift lists
    obtain ⟨isProvider, areFeatures, areModels, -, areComposites, areMappings, isSupport⟩ :=
      (documentFields_iff_of_lifted isLifted isMerged isFlat).mp inFields
    have mappingsRead := exists_canonical_iff.mp ⟨_, isFlat, areMappings⟩
    rw [listed_mappings_eq isLifted isMerged] at mappingsRead
    exact ⟨isProvider, areFeatures, areModels, ⟨items, kept, areItems, areKept, areEnums⟩,
      ⟨composites, isNested, areComposites⟩, mappingsRead, isSupport, namesApart⟩
  · intro reads
    obtain ⟨items, kept, areItems, areKept, areEnums⟩ := reads.enums
    obtain ⟨composites, isNested, areComposites⟩ := reads.composites
    obtain ⟨lifted, isLift, lists, isLifted⟩ := exists_lifted areItems isNested
    obtain ⟨merged, isMerged, enumsRead⟩ := exists_merged_iff.mpr ⟨_, _, lists, areKept, areEnums⟩
    have mappingsRead := reads.mappings
    rw [← listed_mappings_eq isLifted isMerged] at mappingsRead
    obtain ⟨flat, isFlat, areMappings⟩ := exists_canonical_iff.mpr mappingsRead
    refine ⟨flat, ⟨lifted, isLift, merged, isMerged, isFlat⟩, ?_, reads.namesApart⟩
    exact (documentFields_iff_of_lifted isLifted isMerged isFlat).mpr
      ⟨reads.provider, reads.previewFeatures, reads.models, enumsRead, areComposites, areMappings,
        reads.aggregateSupport⟩

end Fields

end ZodSchemas.Source
