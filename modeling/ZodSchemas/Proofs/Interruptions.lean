import Mathlib.Tactic.Push
import Mathlib.Tactic.SplitIfs
import ZodSchemas.Decode.Metadata
import ZodSchemas.Decode.Settings
import ZodSchemas.Proofs.Decoding

namespace ZodSchemas.Decode

/-!
# What interrupts the reading

An object without a name among the values of an enumeration interrupts the
reading, whatever else there is to say about the document.  Nothing else does:
settings are read without interruption, and so is each part of a document other
than its enumerations.
-/

open ZodSchemas.Data
open ZodSchemas.Metadata

namespace Decoded

@[simp] theorem refuse_ne_interrupted
    (cause : Cause) :
    (refuse cause : Decoded α) ≠ .interrupted := by
  simp [refuse]

theorem map_eq_interrupted_iff
    {transform : α → β}
    {result : Decoded α} :
    transform <$> result = .interrupted ↔ result = .interrupted := by
  change map transform result = _ ↔ _
  cases result <;> simp [map]

/-- An interruption of a part interrupts the whole. -/
theorem seq_eq_interrupted_iff
    {transform : Decoded (α → β)}
    {result : Decoded α} :
    transform <*> result = .interrupted ↔ transform = .interrupted ∨ result = .interrupted := by
  change apply transform result = _ ↔ _
  cases transform <;> cases result <;> simp [apply]

theorem andThen_eq_interrupted_iff
    {result : Decoded α}
    {next : α → Decoded β} :
    result.andThen next = .interrupted ↔
      result = .interrupted ∨ ∃ value, result = .accepted value ∧ next value = .interrupted := by
  cases result <;> simp [andThen]

theorem check_eq_interrupted_iff
    {test : α → Option Cause}
    {result : Decoded α} :
    result.check test = .interrupted ↔ result = .interrupted := by
  rw [check, andThen_eq_interrupted_iff, or_iff_left_iff_imp]
  rintro ⟨value, -, interrupted⟩
  split at interrupted <;> contradiction

theorem below_eq_interrupted_iff
    {step : Step}
    {result : Decoded α} :
    result.below step = .interrupted ↔ result = .interrupted := by
  cases result <;> simp [below]

theorem all_eq_interrupted_iff
    {results : List (Decoded α)} :
    Decoded.all results = .interrupted ↔ .interrupted ∈ results := by
  induction results with
  | nil =>
      simp [Decoded.all]
  | cons first rest inductionHypothesis =>
      change List.cons <$> first <*> Decoded.all rest = .interrupted ↔ _
      rw [seq_eq_interrupted_iff, map_eq_interrupted_iff, inductionHypothesis, List.mem_cons,
        eq_comm]

end Decoded

open Decoded

/-- A way of reading that nothing interrupts. -/
def NeverInterrupted (decode : α → Decoded β) : Prop :=
  ∀ value, decode value ≠ .interrupted

namespace NeverInterrupted

theorem map
    {decode : α → Decoded β}
    (never : NeverInterrupted decode)
    (transform : β → γ) :
    NeverInterrupted fun value => transform <$> decode value :=
  fun value => mt map_eq_interrupted_iff.mp (never value)

theorem seq
    {first : α → Decoded (β → γ)}
    {second : α → Decoded β}
    (never : NeverInterrupted first)
    (neverToo : NeverInterrupted second) :
    NeverInterrupted fun value => first value <*> second value :=
  fun value interrupted =>
    (seq_eq_interrupted_iff.mp interrupted).elim (never value) (neverToo value)

theorem andThen
    {decode : α → Decoded β}
    {next : β → Decoded γ}
    (never : NeverInterrupted decode)
    (neverToo : NeverInterrupted next) :
    NeverInterrupted fun value => (decode value).andThen next := by
  intro value interrupted
  rcases andThen_eq_interrupted_iff.mp interrupted with atFirst | ⟨read, -, atNext⟩
  · exact never value atFirst
  · exact neverToo read atNext

theorem check
    {decode : α → Decoded β}
    (never : NeverInterrupted decode)
    (test : β → Option Cause) :
    NeverInterrupted fun value => (decode value).check test :=
  fun value => mt check_eq_interrupted_iff.mp (never value)

/-- The items of a list are read without interruption if each of them is. -/
theorem all_itemsFrom
    {decode : Value → Decoded α}
    (never : NeverInterrupted decode)
    (items : List Value)
    (position : Nat) :
    Decoded.all (itemsFrom decode position items) ≠ .interrupted := by
  rw [ne_eq, all_eq_interrupted_iff]
  induction items generalizing position with
  | nil =>
      exact List.not_mem_nil
  | cons item rest inductionHypothesis =>
      rw [itemsFrom, List.mem_cons, not_or]
      exact ⟨fun same => never item (below_eq_interrupted_iff.mp same.symm),
        inductionHypothesis (position + 1)⟩

theorem list
    {decode : Value → Decoded α}
    (never : NeverInterrupted decode) :
    NeverInterrupted (Decode.list decode) := by
  intro value
  unfold Decode.list
  split
  · exact never.all_itemsFrom _ 0
  · exact never.all_itemsFrom _ 0
  · exact never.all_itemsFrom _ 0
  · simp

theorem orNull
    {decode : Value → Decoded α}
    (never : NeverInterrupted decode) :
    NeverInterrupted (Decode.orNull decode) := by
  intro value
  unfold Decode.orNull
  split
  · simp
  · exact never.map some value

theorem required
    {decode : Value → Decoded α}
    (never : NeverInterrupted decode)
    (name : FieldName) :
    NeverInterrupted (Decode.required name decode) := by
  intro entries
  unfold Decode.required
  split
  · exact mt below_eq_interrupted_iff.mp (never _)
  · simp

theorem optional
    {decode : Value → Decoded α}
    (never : NeverInterrupted decode)
    (name : FieldName)
    (absent : α) :
    NeverInterrupted (Decode.optional name absent decode) := by
  intro entries
  unfold Decode.optional
  split
  · exact mt below_eq_interrupted_iff.mp (never _)
  · simp

theorem record
    {decode : Mapping → Decoded α}
    (never : NeverInterrupted decode)
    (name : String) :
    NeverInterrupted (Decode.record name decode) := by
  intro value
  unfold Decode.record
  split
  · exact never _
  · simp

theorem closedRecord
    {decode : Mapping → Decoded α}
    (never : NeverInterrupted decode)
    (name : String)
    (names : List FieldName) :
    NeverInterrupted (Decode.closedRecord name names decode) := by
  have known : NeverInterrupted (Decode.known names) := by
    intro entries
    unfold Decode.known
    dsimp only
    split <;> simp
  apply NeverInterrupted.record
  intro entries
  dsimp only
  split
  · exact (never.map _).seq known entries
  · simp

end NeverInterrupted

theorem text_never : NeverInterrupted text := by
  intro value
  unfold text
  split
  · simp
  · split <;> simp
  · simp

theorem wholeText_never
    {decode : String → Decoded α}
    (never : NeverInterrupted decode) :
    NeverInterrupted (wholeText decode) := by
  intro text
  unfold wholeText
  split
  · exact never text
  · simp

theorem filledText_never : NeverInterrupted filledText := by
  refine text_never.andThen (wholeText_never fun text => ?_)
  split <;> simp

theorem member_never
    (all : List α)
    (label : α → String) :
    NeverInterrupted (member all label) := by
  have named : NeverInterrupted (memberNamed all label) := by
    intro name
    unfold memberNamed
    split <;> simp
  intro value
  unfold member
  split
  · exact wholeText_never named _
  · simp

theorem booleanNumber_never : NeverInterrupted booleanNumber := by
  intro number
  unfold booleanNumber
  split_ifs <;> simp

theorem booleanWord_never : NeverInterrupted booleanWord := by
  intro word
  unfold booleanWord
  dsimp only
  split_ifs <;> simp

theorem boolean_never : NeverInterrupted boolean := by
  intro value
  unfold boolean
  split
  · simp
  · exact booleanNumber_never _
  · split
    · exact booleanNumber_never _
    · simp
  · exact wholeText_never booleanWord_never _
  · split
    · exact booleanWord_never _
    · simp
  · simp

theorem integerDouble_never : NeverInterrupted integerDouble := by
  intro value
  unfold integerDouble
  split
  · simp
  · split
    · simp
    · split <;> simp

theorem integerWord_never : NeverInterrupted integerWord := by
  intro word
  unfold integerWord
  split
  · simp
  · simp
  · split <;> simp

theorem integer_never : NeverInterrupted integer := by
  intro value
  unfold integer
  split
  · simp
  · simp
  · exact integerDouble_never _
  · exact wholeText_never integerWord_never _
  · split
    · exact integerWord_never _
    · simp
  · simp

theorem dictionary_never
    {decode : Value → Decoded α}
    (never : NeverInterrupted decode) :
    NeverInterrupted (dictionary decode) := by
  intro value
  unfold dictionary
  split
  · refine mt map_eq_interrupted_iff.mp (mt all_eq_interrupted_iff.mp ?_)
    intro member
    obtain ⟨⟨key, field⟩, -, interrupted⟩ := List.mem_map.mp member
    rcases seq_eq_interrupted_iff.mp interrupted with atKey | atField
    · have inKey := below_eq_interrupted_iff.mp (map_eq_interrupted_iff.mp atKey)
      exact text_never _ (below_eq_interrupted_iff.mp inKey)
    · exact never field (below_eq_interrupted_iff.mp atField)
  · simp

theorem alternative_never : NeverInterrupted alternative :=
  ((((filledText_never.required _).map _).seq (boolean_never.optional _ _)).seq
    ((member_never _ _).optional _ _)).seq (text_never.orNull.optional _ _) |>.record _

theorem inputField_never : NeverInterrupted inputField :=
  ((((filledText_never.required _).map _).seq (boolean_never.optional _ _)).seq
    (boolean_never.optional _ _)).seq (alternative_never.list.optional _ _) |>.record _

theorem composite_never : NeverInterrupted composite :=
  ((filledText_never.required _).map _).seq (inputField_never.list.optional _ _) |>.record _

theorem modelField_never : NeverInterrupted modelField :=
  (((((filledText_never.required _).map _).seq ((member_never _ _).optional _ _)).seq
    (filledText_never.required _)).seq (boolean_never.optional _ _)).seq
      (boolean_never.optional _ _) |>.record _

theorem model_never : NeverInterrupted model :=
  ((filledText_never.required _).map _).seq (modelField_never.list.optional _ _) |>.record _

theorem operationMapping_never : NeverInterrupted operationMapping :=
  (((filledText_never.required _).map _).seq
    (((member_never _ _).list.map distinct).optional _ _)).seq
      (text_never.list.optional _ _) |>.record _

theorem aggregateSupport_never : NeverInterrupted aggregateSupport :=
  (((((boolean_never.optional _ _).map _).seq (boolean_never.optional _ _)).seq
    (boolean_never.optional _ _)).seq (boolean_never.optional _ _)).seq
      (boolean_never.optional _ _) |>.record _

theorem client_never : NeverInterrupted client := by
  have optionalText : NeverInterrupted optionalText := text_never.orNull
  exact (((((text_never.optional _ _).map _).seq (optionalText.optional _ _)).seq
    (optionalText.optional _ _)).seq (optionalText.optional _ _)).seq
      ((optionalText.map _).optional _ _) |>.closedRecord _ _

/-- Nothing interrupts the reading of settings. -/
theorem settings_never : NeverInterrupted settings :=
  (((((((text_never.optional _ _).map _).seq (boolean_never.optional _ _)).seq
    (boolean_never.optional _ _)).seq (client_never.optional _ _)).seq
      ((integer_never.check _).optional _ _)).seq (boolean_never.optional _ _)).seq
        (boolean_never.optional _ _) |>.closedRecord _ _

/-! Enumerations -/

/-- Each object among the values of an enumeration has a name. -/
def HasNamedValues (item : Value) : Prop :=
  ∀ fields, item = .mapping fields → ∀ values, Mapping.get? fields "values" = some (.list values) →
    ∀ entries, .mapping entries ∈ values → (Mapping.get? entries "name").isSome = true

theorem flattenValue?_eq_none_iff
    {value : Value} :
    flattenValue? value = none ↔
      ∃ entries, value = .mapping entries ∧ Mapping.get? entries "name" = none := by
  cases value <;> simp [flattenValue?]

theorem mapM_eq_none_iff
    {step : α → Option β}
    {items : List α} :
    items.mapM step = none ↔ ∃ item ∈ items, step item = none := by
  induction items with
  | nil =>
      simp
  | cons item rest inductionHypothesis =>
      rw [List.mapM_cons, List.exists_mem_cons_iff, ← inductionHypothesis]
      cases step item with
      | none =>
          simp
      | some first =>
          cases rest.mapM step <;> simp

theorem flattenValues_eq_interrupted_iff
    {value : Value} :
    flattenValues value = .interrupted ↔
      ∃ values, value = .list values ∧
        ∃ entries, .mapping entries ∈ values ∧ Mapping.get? entries "name" = none := by
  unfold flattenValues
  cases value with
  | list items =>
      dsimp only
      have nameless :
          items.mapM flattenValue? = none ↔
            ∃ entries, .mapping entries ∈ items ∧ Mapping.get? entries "name" = none := by
        rw [mapM_eq_none_iff]
        simp only [flattenValue?_eq_none_iff]
        constructor
        · rintro ⟨_, member, entries, rfl, missing⟩
          exact ⟨entries, member, missing⟩
        · rintro ⟨entries, member, missing⟩
          exact ⟨_, member, entries, rfl, missing⟩
      simp only [Value.list.injEq, exists_eq_left', ← nameless]
      cases items.mapM flattenValue? <;> simp
  | scalar | set | pair | mapping =>
      simp

theorem enumValues_eq_interrupted_iff
    {value : Value} :
    enumValues value = .interrupted ↔ flattenValues value = .interrupted := by
  rw [enumValues, check_eq_interrupted_iff, check_eq_interrupted_iff, andThen_eq_interrupted_iff,
    or_iff_left_iff_imp]
  rintro ⟨values, -, interrupted⟩
  exact absurd interrupted (text_never.list values)

/-- An enumeration interrupts the reading if an object among its values has no name. -/
theorem enumType_eq_interrupted_iff
    {item : Value} :
    enumType item = .interrupted ↔ ¬ HasNamedValues item := by
  have atRequired (fields : Mapping) :
      required (.single "values") enumValues fields = .interrupted ↔
        ∃ values, Mapping.get? fields "values" = some (.list values) ∧
          ∃ entries, .mapping entries ∈ values ∧ Mapping.get? entries "name" = none := by
    rw [required, FieldName.find?, FieldName.single]
    cases Mapping.get? fields "values" with
    | none =>
        simp
    | some value =>
        simp [below_eq_interrupted_iff, enumValues_eq_interrupted_iff,
          flattenValues_eq_interrupted_iff]
  unfold HasNamedValues
  cases item with
  | mapping fields =>
      have nameNever := (filledText_never.required (.single "name")).map EnumType.mk fields
      change EnumType.mk <$> required (.single "name") filledText fields
        <*> required (.single "values") enumValues fields = .interrupted ↔ _
      rw [seq_eq_interrupted_iff, or_iff_right nameNever, atRequired]
      simp
  | scalar | set | pair | list =>
      simp [enumType, record, refuse]

theorem all_itemsFrom_eq_interrupted_iff
    {decode : Value → Decoded α}
    {items : List Value}
    {position : Nat} :
    Decoded.all (itemsFrom decode position items) = .interrupted ↔
      ∃ item ∈ items, decode item = .interrupted := by
  rw [all_eq_interrupted_iff]
  induction items generalizing position with
  | nil =>
      simp [itemsFrom]
  | cons item rest inductionHypothesis =>
      rw [itemsFrom, List.mem_cons, inductionHypothesis, eq_comm, below_eq_interrupted_iff,
        List.exists_mem_cons_iff]

/-- The reading of a document is interrupted at its enumerations, if it is. -/
theorem document_eq_interrupted_iff
    {entries : Mapping} :
    document (.mapping entries) = .interrupted ↔
      optional (.single "enums") [] (list enumType) entries = .interrupted := by
  have provider := ((member_never Provider.all Provider.label).optional (.single "provider")
    .postgresql).map Document.mk entries
  have features := text_never.list.optional ⟨"previewFeatures", "preview_features"⟩ [] entries
  have models := model_never.list.optional (.single "models") [] entries
  have composites :=
    composite_never.list.optional ⟨"inputObjectTypes", "input_object_types"⟩ [] entries
  have mappings :=
    operationMapping_never.list.optional ⟨"modelOperations", "model_operations"⟩ [] entries
  have support := (dictionary_never aggregateSupport_never).orNull.optional
    ⟨"aggregateSupport", "aggregate_support"⟩ none entries
  -- Of the fields only the enumerations look into values that they have not checked.
  rw [document, check_eq_interrupted_iff]
  change documentFields entries = .interrupted ↔ _
  rw [documentFields, seq_eq_interrupted_iff, seq_eq_interrupted_iff, seq_eq_interrupted_iff,
    seq_eq_interrupted_iff, seq_eq_interrupted_iff, seq_eq_interrupted_iff]
  simp only [provider, features, models, composites, mappings, support, false_or, or_false]

/-- Listed enumerations interrupt the reading if one of them has a value without a name. -/
theorem list_enumType_eq_interrupted_iff
    {items : List Value} :
    list enumType (.list items) = .interrupted ↔ ¬ ∀ item ∈ items, HasNamedValues item := by
  rw [list, all_itemsFrom_eq_interrupted_iff]
  push Not
  simp only [enumType_eq_interrupted_iff]

end ZodSchemas.Decode
