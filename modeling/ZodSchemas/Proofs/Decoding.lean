import Mathlib.Data.List.Forall2
import ZodSchemas.Decode.Record

namespace ZodSchemas.Decode

/-!
# Reading what has been written

A decoder rereads what an encoder writes: whatever it has accepted, it accepts as
the same once that is written.  This carries over from values to lists, to
fields and to tables, so that it can be shown for records field by field.
-/

open ZodSchemas.Data

namespace Decoded

theorem map_of_accepted
    {result : Decoded α}
    {value : α}
    (accepted : result = .accepted value)
    (transform : α → β) :
    transform <$> result = .accepted (transform value) := by
  rw [accepted]
  rfl

theorem seq_of_accepted
    {transform : Decoded (α → β)}
    {result : Decoded α}
    {function : α → β}
    {value : α}
    (isFunction : transform = .accepted function)
    (accepted : result = .accepted value) :
    transform <*> result = .accepted (function value) := by
  rw [isFunction, accepted]
  rfl

theorem map_eq_accepted_iff
    {transform : α → β}
    {result : Decoded α}
    {value : β} :
    transform <$> result = .accepted value ↔
      ∃ original, result = .accepted original ∧ transform original = value := by
  constructor
  · intro accepted
    cases result with
    | accepted original =>
        exact ⟨original, rfl, Decoded.accepted.inj accepted⟩
    | rejected issues | interrupted =>
        contradiction
  · rintro ⟨original, rfl, rfl⟩
    rfl

theorem seq_eq_accepted_iff
    {transform : Decoded (α → β)}
    {result : Decoded α}
    {value : β} :
    transform <*> result = .accepted value ↔
      ∃ function original,
        transform = .accepted function ∧ result = .accepted original ∧
          function original = value := by
  constructor
  · intro accepted
    cases transform with
    | accepted function =>
        cases result with
        | accepted original =>
            exact ⟨function, original, rfl, rfl, Decoded.accepted.inj accepted⟩
        | rejected issues | interrupted =>
            contradiction
    | rejected issues | interrupted =>
        cases result <;> contradiction
  · rintro ⟨function, original, rfl, rfl, rfl⟩
    rfl

theorem andThen_eq_accepted_iff
    {result : Decoded α}
    {next : α → Decoded β}
    {value : β} :
    result.andThen next = .accepted value ↔
      ∃ original, result = .accepted original ∧ next original = .accepted value := by
  constructor
  · intro accepted
    cases result with
    | accepted original =>
        exact ⟨original, rfl, accepted⟩
    | rejected issues | interrupted =>
        contradiction
  · rintro ⟨original, rfl, accepted⟩
    exact accepted

theorem check_eq_accepted_iff
    {test : α → Option Cause}
    {result : Decoded α}
    {value : α} :
    result.check test = .accepted value ↔ result = .accepted value ∧ test value = none := by
  constructor
  · intro accepted
    obtain ⟨original, isOriginal, tested⟩ := andThen_eq_accepted_iff.mp accepted
    split at tested
    · contradiction
    · rename_i passes
      cases tested
      exact ⟨isOriginal, passes⟩
  · rintro ⟨rfl, passes⟩
    simp [check, andThen, passes]

theorem below_eq_accepted_iff
    {step : Step}
    {result : Decoded α}
    {value : α} :
    result.below step = .accepted value ↔ result = .accepted value := by
  cases result <;> simp [below]

/-- Parts are accepted together exactly if each of them is. -/
theorem all_eq_accepted_iff
    {results : List (Decoded α)}
    {values : List α} :
    Decoded.all results = .accepted values ↔
      List.Forall₂ (fun result value => result = .accepted value) results values := by
  induction results generalizing values with
  | nil =>
      cases values <;> simp [Decoded.all]
  | cons first rest inductionHypothesis =>
      change (List.cons <$> first <*> Decoded.all rest) = .accepted values ↔ _
      rw [seq_eq_accepted_iff, List.forall₂_cons_left_iff]
      constructor
      · rintro ⟨_, others, atFirst, atRest, rfl⟩
        obtain ⟨value, isValue, rfl⟩ := map_eq_accepted_iff.mp atFirst
        exact ⟨value, others, isValue, inductionHypothesis.mp atRest, rfl⟩
      · rintro ⟨value, others, rfl, atRest, rfl⟩
        exact ⟨_, others, rfl, inductionHypothesis.mpr atRest, rfl⟩

end Decoded

open Decoded

/-- Whatever is read is read as the same again once it is written. -/
structure Rereads (decode : Value → Decoded α) (encode : α → Value) : Prop where
  again :
    ∀ {value : Value} {result : α},
      decode value = .accepted result → decode (encode result) = .accepted result

theorem all_itemsFrom_eq_accepted_iff
    {decode : Value → Decoded α}
    {position : Nat}
    {items : List Value}
    {values : List α} :
    Decoded.all (itemsFrom decode position items) = .accepted values ↔
      List.Forall₂ (fun item value => decode item = .accepted value) items values := by
  rw [all_eq_accepted_iff]
  induction items generalizing position values with
  | nil =>
      simp [itemsFrom]
  | cons item rest inductionHypothesis =>
      rw [itemsFrom, List.forall₂_cons_left_iff, List.forall₂_cons_left_iff]
      simp only [below_eq_accepted_iff, inductionHypothesis]

theorem list_items_eq_accepted_iff
    {decode : Value → Decoded α}
    {items : List Value}
    {values : List α} :
    list decode (.list items) = .accepted values ↔
      List.Forall₂ (fun item value => decode item = .accepted value) items values :=
  all_itemsFrom_eq_accepted_iff

/-- What holds of each item and what it is read as relates the items and the list. -/
theorem forall₂_of_list_accepted
    {decode : Value → Decoded α}
    {related : Value → α → Prop}
    {items : List Value}
    {values : List α}
    (accepted : list decode (.list items) = .accepted values)
    (each : ∀ item ∈ items, ∀ value, decode item = .accepted value → related item value) :
    List.Forall₂ related items values :=
  ((List.forall₂_and_left items values).mpr ⟨each, list_items_eq_accepted_iff.mp accepted⟩).imp
    fun _ value ⟨atItem, isValue⟩ => atItem value isValue

theorem list_eq_accepted
    {decode : Value → Decoded α}
    {value : Value}
    {values : List α}
    (accepted : list decode value = .accepted values) :
    ∃ items, List.Forall₂ (fun item value => decode item = .accepted value) items values := by
  cases value with
  | list items | set members | pair first second =>
      exact ⟨_, all_itemsFrom_eq_accepted_iff.mp accepted⟩
  | scalar | mapping =>
      contradiction

/-- Whatever is read comes from something. -/
theorem exists_original_of_mem
    {related : β → α → Prop}
    {originals : List β}
    {values : List α}
    (each : List.Forall₂ related originals values)
    {value : α}
    (member : value ∈ values) :
    ∃ original ∈ originals, related original value := by
  induction each with
  | nil =>
      contradiction
  | cons atFirst _ inductionHypothesis =>
      rcases List.mem_cons.mp member with rfl | later
      · exact ⟨_, .head _, atFirst⟩
      · obtain ⟨original, inRest, isRelated⟩ := inductionHypothesis later
        exact ⟨original, .tail _ inRest, isRelated⟩

/-- A list is reread where each of its members is. -/
theorem list_map_eq_accepted
    {decode : Value → Decoded α}
    {encode : α → Value}
    {values : List α}
    (reread : ∀ value ∈ values, decode (encode value) = .accepted value) :
    list decode (.list (values.map encode)) = .accepted values := by
  rw [list_items_eq_accepted_iff, List.forall₂_map_left_iff, List.forall₂_same]
  exact reread

theorem Rereads.of_mem_list
    {decode : Value → Decoded α}
    {encode : α → Value}
    (rereads : Rereads decode encode)
    {value : Value}
    {values : List α}
    (accepted : list decode value = .accepted values) :
    ∀ member ∈ values, decode (encode member) = .accepted member := by
  intro member isMember
  obtain ⟨items, each⟩ := list_eq_accepted accepted
  obtain ⟨item, -, atItem⟩ := exists_original_of_mem each isMember
  exact rereads.again atItem

theorem Rereads.list
    {decode : Value → Decoded α}
    {encode : α → Value}
    (rereads : Rereads decode encode) :
    Rereads (Decode.list decode) fun values => .list (values.map encode) :=
  ⟨fun accepted => list_map_eq_accepted (rereads.of_mem_list accepted)⟩

theorem rereads_text :
    Rereads text .text :=
  ⟨fun _ => rfl⟩

theorem rereads_boolean :
    Rereads boolean .bool :=
  ⟨fun _ => rfl⟩

theorem wholeText_eq_accepted_iff
    {decode : String → Decoded α}
    {text : String}
    {value : α} :
    wholeText decode text = .accepted value ↔
      Text.isWhole text = true ∧ decode text = .accepted value := by
  unfold wholeText
  split
  · rename_i whole
    simp [whole]
  · rename_i broken
    simp [broken, refuse]

/-- A filled text is a text. -/
theorem text_of_filledText
    {value : Value}
    {filled : String}
    (accepted : filledText value = .accepted filled) :
    text value = .accepted filled := by
  obtain ⟨original, isText, isWhole⟩ := andThen_eq_accepted_iff.mp accepted
  obtain ⟨-, notEmpty⟩ := wholeText_eq_accepted_iff.mp isWhole
  split at notEmpty
  · contradiction
  · cases notEmpty
    exact isText

theorem rereads_filledText :
    Rereads filledText .text := by
  constructor
  intro value filled accepted
  obtain ⟨original, isText, isWhole⟩ := andThen_eq_accepted_iff.mp accepted
  obtain rfl : original = filled :=
    Decoded.accepted.inj (isText.symm.trans (text_of_filledText accepted))
  exact andThen_eq_accepted_iff.mpr ⟨original, rfl, isWhole⟩

/-- A member of a vocabulary is found by its label, since it has been. -/
theorem rereads_member
    (all : List α)
    (label : α → String) :
    Rereads (member all label) fun result => .text (label result) := by
  constructor
  intro value result accepted
  unfold member at accepted
  split at accepted
  · rename_i name isName
    obtain ⟨whole, isMember⟩ := wholeText_eq_accepted_iff.mp accepted
    have sameName : label result = name := by
      unfold memberNamed at isMember
      split at isMember
      · rename_i found isFound
        cases isMember
        simpa using List.find?_some isFound
      · contradiction
    change wholeText (memberNamed all label) (label result) = _
    rw [sameName]
    exact accepted
  · contradiction

theorem orNull_eq_accepted
    {decode : Value → Decoded α}
    {value : Value}
    {result : Option α}
    (accepted : orNull decode value = .accepted result) :
    result = none ∨ ∃ original, decode value = .accepted original ∧ result = some original := by
  unfold orNull at accepted
  split at accepted
  · exact .inl (Decoded.accepted.inj accepted).symm
  · obtain ⟨original, isOriginal, rfl⟩ := map_eq_accepted_iff.mp accepted
    exact .inr ⟨original, isOriginal, rfl⟩

theorem rereads_optionalText :
    Rereads (orNull text) .textOrNull := by
  constructor
  intro value result accepted
  rcases orNull_eq_accepted accepted with rfl | ⟨original, -, rfl⟩
  · rfl
  · rfl

theorem rereads_integerWithin
    (least greatest : Int) :
    Rereads (integerWithin least greatest) .int := by
  constructor
  intro value number accepted
  obtain ⟨-, inside⟩ := check_eq_accepted_iff.mp accepted
  exact check_eq_accepted_iff.mpr ⟨rfl, inside⟩

/-- Nothing but the text itself is the same key as a text. -/
@[simp] theorem same_text
    (key : Scalar)
    (name : String) :
    key.same (.text name) = decide (key = .text name) := by
  cases key with
  | text =>
      simp [Scalar.same, Scalar.integer?, beq_eq_decide]
  | null | bool | int | double | bytes | moment =>
      simp [Scalar.same, Scalar.integer?]

theorem get?_cons
    (key : Scalar)
    (value : Value)
    (rest : Mapping)
    (name : String) :
    Mapping.get? ((key, value) :: rest) name =
      if key = .text name then some value else Mapping.get? rest name := by
  unfold Mapping.get? Mapping.find?
  by_cases isKey : key = .text name <;>
    simp [isKey]

theorem get?_put
    (mapping : Mapping)
    (name : String)
    (value : Value)
    (other : String) :
    (mapping.put name value).get? other =
      if name = other then some value else mapping.get? other := by
  unfold Mapping.put Mapping.insert
  induction mapping with
  | nil =>
      simp [insertEntry, get?_cons]
  | cons entry rest inductionHypothesis =>
      obtain ⟨key, old⟩ := entry
      by_cases isKey : key = .text name
      · by_cases isName : name = other <;>
          simp [insertEntry, get?_cons, isKey, isName]
      · by_cases isOther : key = .text other
        · have different : name ≠ other :=
            fun same => isKey (same ▸ isOther)
          simp [insertEntry, get?_cons, isKey, if_pos isOther, different]
        · simp [insertEntry, get?_cons, isKey, isOther, inductionHypothesis]

theorem get?_erase
    (mapping : Mapping)
    (name other : String) :
    (mapping.erase name).get? other = if name = other then none else mapping.get? other := by
  unfold Mapping.erase
  induction mapping with
  | nil =>
      simp [Mapping.get?, Mapping.find?]
  | cons entry rest inductionHypothesis =>
      obtain ⟨key, value⟩ := entry
      by_cases isKey : key = .text name
      · rw [List.filter_cons_of_neg (by simp [isKey]), inductionHypothesis, get?_cons, isKey]
        by_cases isName : name = other <;>
          simp [isName]
      · rw [List.filter_cons_of_pos (by simp [isKey]), get?_cons, get?_cons, inductionHypothesis]
        by_cases isOther : key = .text other
        · have different : name ≠ other :=
            fun same => isKey (same ▸ isOther)
          simp [isOther, different]
        · simp [isOther]

/-- The entries of a mapping with text keys. -/
def named (entries : List (String × Value)) : Mapping :=
  entries.map fun entry => (.text entry.1, entry.2)

theorem get?_named
    (entries : List (String × Value))
    (name : String) :
    (named entries).get? name = entries.lookup name := by
  induction entries with
  | nil =>
      rfl
  | cons entry rest inductionHypothesis =>
      obtain ⟨key, value⟩ := entry
      rw [named, List.map_cons, get?_cons, ← named, inductionHypothesis, List.lookup_cons]
      by_cases isKey : name = key
      · simp [isKey]
      · simp [Ne.symm isKey, beq_false_of_ne isKey]

theorem find?_single
    {name : String}
    {entries : Mapping}
    {spelling : String}
    {field : Value}
    (found : (FieldName.single name).find? entries = some (spelling, field)) :
    entries.get? name = some field := by
  unfold FieldName.find? FieldName.single at found
  split at found
  · rename_i value isValue
    cases found
    exact isValue
  · rename_i missing
    rw [missing] at found
    contradiction

theorem record_eq_accepted
    {name : String}
    {decode : Mapping → Decoded α}
    {value : Value}
    {result : α}
    (accepted : record name decode value = .accepted result) :
    ∃ entries, value = .mapping entries ∧ decode entries = .accepted result := by
  unfold record at accepted
  split at accepted
  · exact ⟨_, rfl, accepted⟩
  · contradiction

theorem required_eq_accepted
    {decode : Value → Decoded α}
    {name : FieldName}
    {value : α}
    {entries : Mapping}
    (accepted : required name decode entries = .accepted value) :
    ∃ spelling field,
      name.find? entries = some (spelling, field) ∧ decode field = .accepted value := by
  unfold required at accepted
  split at accepted
  · rename_i spelling field found
    exact ⟨spelling, field, found, below_eq_accepted_iff.mp accepted⟩
  · contradiction

/-- A field that is written under its document spelling is found there. -/
theorem Rereads.required
    {decode : Value → Decoded α}
    {encode : α → Value}
    (rereads : Rereads decode encode)
    {name : FieldName}
    {entries : Mapping}
    {value : α}
    (accepted : Decode.required name decode entries = .accepted value)
    {written : List (String × Value)}
    (found : written.lookup name.document = some (encode value)) :
    Decode.required name decode (named written) = .accepted value := by
  obtain ⟨_, field, -, isField⟩ := required_eq_accepted accepted
  unfold Decode.required FieldName.find?
  rw [get?_named, found]
  exact below_eq_accepted_iff.mpr (rereads.again isField)

theorem optional_named
    {decode : Value → Decoded α}
    {name : FieldName}
    {absent value : α}
    {written : List (String × Value)}
    {field : Value}
    (found : written.lookup name.document = some field)
    (accepted : decode field = .accepted value) :
    optional name absent decode (named written) = .accepted value := by
  unfold optional FieldName.find?
  rw [get?_named, found]
  exact below_eq_accepted_iff.mpr accepted

theorem optional_eq_accepted
    {decode : Value → Decoded α}
    {name : FieldName}
    {absent value : α}
    {entries : Mapping}
    (accepted : optional name absent decode entries = .accepted value) :
    (name.find? entries = none ∧ value = absent) ∨
      ∃ spelling field,
        name.find? entries = some (spelling, field) ∧ decode field = .accepted value := by
  unfold optional at accepted
  split at accepted
  · rename_i spelling field found
    exact .inr ⟨spelling, field, found, below_eq_accepted_iff.mp accepted⟩
  · rename_i missing
    exact .inl ⟨missing, (Decoded.accepted.inj accepted).symm⟩

/-- A field that may be absent is always written, so what stands for its absence has to be reread
as well. -/
theorem Rereads.optional
    {decode : Value → Decoded α}
    {encode : α → Value}
    (rereads : Rereads decode encode)
    {name : FieldName}
    {absent : α}
    (atAbsent : decode (encode absent) = .accepted absent)
    {entries : Mapping}
    {value : α}
    (accepted : Decode.optional name absent decode entries = .accepted value)
    {written : List (String × Value)}
    (found : written.lookup name.document = some (encode value)) :
    Decode.optional name absent decode (named written) = .accepted value := by
  refine optional_named found ?_
  rcases optional_eq_accepted accepted with ⟨-, rfl⟩ | ⟨_, field, -, isField⟩
  · exact atAbsent
  · exact rereads.again isField

end ZodSchemas.Decode
