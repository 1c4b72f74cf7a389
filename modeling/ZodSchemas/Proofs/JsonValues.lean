import Mathlib.Data.List.Forall2
import Mathlib.Tactic.SplitIfs
import ZodSchemas.Json.Reader

namespace ZodSchemas

/-!
# Values of JSON documents

JSON has lists, objects and the scalars that it can spell: bytes, moments, sets
and pairs come from YAML only.  Whatever the reader returns is such a value, and
so is whatever is taken out of it, put into it or made of its parts.
-/

theorem ok_bind
    (value : α)
    (next : α → Except ε β) :
    Except.ok value >>= next = next value :=
  rfl

/-- Two steps succeed together if the second one does on what the first one returns. -/
theorem bind_eq_ok_iff
    {first : Except ε α}
    {next : α → Except ε β}
    {result : β} :
    first >>= next = .ok result ↔ ∃ value, first = .ok value ∧ next value = .ok result := by
  cases first with
  | ok value =>
      constructor
      · exact fun isResult => ⟨value, rfl, isResult⟩
      · rintro ⟨_, ⟨⟩, isResult⟩
        exact isResult
  | error fault =>
      constructor
      · exact fun isResult => nomatch isResult
      · rintro ⟨_, isValue, -⟩
        contradiction

theorem exceptMap_eq_ok_iff
    {step : Except ε α}
    {transform : α → β}
    {result : β} :
    step.map transform = .ok result ↔ ∃ value, step = .ok value ∧ transform value = result := by
  cases step <;> simp [Except.map]

/-- A step that is taken for each item succeeds if it does on each of them. -/
theorem mapM_eq_ok_iff
    {step : β → Except ε α}
    {items : List β}
    {results : List α} :
    items.mapM step = .ok results ↔
      List.Forall₂ (fun item result => step item = .ok result) items results := by
  induction items generalizing results with
  | nil =>
      rw [List.mapM_nil, List.forall₂_nil_left_iff]
      exact ⟨fun isNone => (Except.ok.inj isNone).symm, fun isNone => congrArg _ isNone.symm⟩
  | cons item rest inductionHypothesis =>
      simp only [List.mapM_cons, bind_eq_ok_iff, inductionHypothesis, List.forall₂_cons_left_iff]
      constructor
      · rintro ⟨result, atItem, others, atRest, ⟨⟩⟩
        exact ⟨result, others, atItem, atRest, rfl⟩
      · rintro ⟨result, others, atItem, atRest, rfl⟩
        exact ⟨result, atItem, others, atRest, rfl⟩

namespace Data

/-- Whether JSON can spell a scalar. -/
def Scalar.isJson : Scalar → Bool
  | .null | .bool _ | .int _ | .double _ | .text _ => true
  | .bytes _ | .moment _ => false

def Scalar.isText : Scalar → Bool
  | .text _ => true
  | _ => false

mutual

/-- Whether a value can stand in a JSON document. -/
def Value.isJson : Value → Bool
  | .scalar value => value.isJson
  | .list items => Value.areJson items
  | .mapping entries => Value.entriesAreJson entries
  | .set _ | .pair _ _ => false

/-- Whether several values can stand in a JSON document. -/
def Value.areJson : List Value → Bool
  | [] => true
  | item :: rest => Value.isJson item && Value.areJson rest

/-- Whether entries can stand in an object of a JSON document. -/
def Value.entriesAreJson : List (Scalar × Value) → Bool
  | [] => true
  | (key, value) :: rest => key.isText && Value.isJson value && Value.entriesAreJson rest

end

/-- All keys are texts and all values are values of JSON documents. -/
def Mapping.IsJson (mapping : Mapping) : Prop :=
  ∀ entry ∈ mapping, entry.1.isText = true ∧ entry.2.isJson = true

namespace Value

theorem areJson_iff
    {items : List Value} :
    areJson items = true ↔ ∀ item ∈ items, item.isJson = true := by
  induction items with
  | nil =>
      simp [areJson]
  | cons item rest inductionHypothesis =>
      simp [areJson, inductionHypothesis]

theorem entriesAreJson_iff
    {entries : Mapping} :
    entriesAreJson entries = true ↔ entries.IsJson := by
  unfold Mapping.IsJson
  induction entries with
  | nil =>
      simp [entriesAreJson]
  | cons entry rest inductionHypothesis =>
      rw [entriesAreJson, List.forall_mem_cons, ← inductionHypothesis]
      simp

@[simp] theorem isJson_list
    {items : List Value} :
    (Value.list items).isJson = true ↔ ∀ item ∈ items, item.isJson = true := by
  rw [isJson, areJson_iff]

@[simp] theorem isJson_mapping
    {entries : Mapping} :
    (Value.mapping entries).isJson = true ↔ entries.IsJson := by
  rw [isJson, entriesAreJson_iff]

theorem isJson_of_isText
    {key : Scalar}
    (isText : key.isText = true) :
    (Value.scalar key).isJson = true := by
  cases key with
  | text =>
      rfl
  | null | bool | int | double | bytes | moment =>
      contradiction

theorem isJson_of_mem_parts
    {value : Value}
    (json : value.isJson = true)
    {parts : List Value}
    (isParts : value.parts? = some parts) :
    ∀ part ∈ parts, part.isJson = true := by
  cases value with
  | list items =>
      cases isParts
      exact isJson_list.mp json
  | mapping entries =>
      cases isParts
      intro part member
      obtain ⟨entry, isEntry, rfl⟩ := List.mem_map.mp member
      exact isJson_of_isText (isJson_mapping.mp json entry isEntry).1
  | scalar scalar =>
      cases scalar with
      | text text =>
          cases isParts
          intro part member
          obtain ⟨code, -, rfl⟩ := List.mem_map.mp member
          rfl
      | null | bool | int | double | bytes | moment =>
          contradiction
  | set | pair =>
      contradiction

end Value

namespace Mapping

theorem IsJson.cons
    {key : Scalar}
    {value : Value}
    {rest : Mapping}
    (isText : key.isText = true)
    (json : value.isJson = true)
    (restIsJson : IsJson rest) :
    IsJson ((key, value) :: rest) :=
  List.forall_mem_cons.mpr ⟨⟨isText, json⟩, restIsJson⟩

theorem IsJson.get?
    {mapping : Mapping}
    (json : mapping.IsJson)
    {key : String}
    {value : Value}
    (found : mapping.get? key = some value) :
    value.isJson = true := by
  obtain ⟨entry, isFound, rfl⟩ := Option.map_eq_some_iff.mp found
  exact (json entry (List.mem_of_find?_eq_some isFound)).2

theorem IsJson.insert
    {mapping : Mapping}
    (json : mapping.IsJson)
    {key : Scalar}
    (isText : key.isText = true)
    {value : Value}
    (isJson : value.isJson = true) :
    (mapping.insert key value).IsJson := by
  unfold Mapping.insert
  induction mapping with
  | nil =>
      exact .cons isText isJson json
  | cons entry rest inductionHypothesis =>
      obtain ⟨⟨otherIsText, otherIsJson⟩, restIsJson⟩ := List.forall_mem_cons.mp json
      rw [insertEntry]
      split
      · exact .cons otherIsText isJson restIsJson
      · exact .cons otherIsText otherIsJson (inductionHypothesis restIsJson)

theorem IsJson.put
    {mapping : Mapping}
    (json : mapping.IsJson)
    (key : String)
    {value : Value}
    (isJson : value.isJson = true) :
    (mapping.put key value).IsJson :=
  json.insert rfl isJson

theorem IsJson.putDefault
    {mapping : Mapping}
    (json : mapping.IsJson)
    (key : String)
    {value : Value}
    (isJson : value.isJson = true) :
    (mapping.putDefault key value).IsJson := by
  unfold Mapping.putDefault
  split
  · exact json
  · exact json.put key isJson

theorem IsJson.erase
    {mapping : Mapping}
    (json : mapping.IsJson)
    (key : String) :
    (mapping.erase key).IsJson :=
  fun entry member => json entry (List.mem_filter.mp member).1

theorem IsJson.ofEntries
    {entries : Mapping}
    (json : entries.IsJson) :
    (Mapping.ofEntries entries).IsJson := by
  unfold Mapping.ofEntries
  refine List.foldlRecOn entries _ (motive := IsJson) (fun _ none => nomatch none) ?_
  intro mapping isJson entry member
  exact isJson.insert (json entry member).1 (json entry member).2

end Mapping

end Data

namespace Json

open Data

theorem isText_of_readString
    {start position : Nat}
    {read : List Nat}
    {chars : List Char}
    {scalar : Scalar}
    {behind : Cursor}
    (isRead : readString start position read chars = .ok (scalar, behind)) :
    scalar.isText = true := by
  fun_induction readString start position read chars with
  | case2 =>
      cases isRead
      rfl
  | case5 _ _ _ _ _ _ _ inductionHypothesis =>
      exact inductionHypothesis isRead
  | case6 _ _ _ _ _ _ _ _ inductionHypothesis =>
      exact inductionHypothesis isRead
  | case9 _ _ _ _ _ _ _ inductionHypothesis =>
      exact inductionHypothesis isRead
  | case1 | case3 | case4 | case7 | case8 =>
      contradiction

theorem isJson_of_readNumber
    {cursor : Cursor}
    {scalar : Scalar}
    {behind : Cursor}
    (isRead : readNumber cursor = .ok (scalar, behind)) :
    scalar.isJson = true := by
  revert isRead
  fun_cases readNumber cursor with
  | case3 | case4 =>
      rintro ⟨⟩
      rfl
  | case1 | case2 =>
      rintro ⟨⟩

theorem isJson_of_readPlain
    {cursor : Cursor}
    {scalar : Scalar}
    {behind : Cursor}
    (isRead : readPlain cursor = .ok (scalar, behind)) :
    scalar.isJson = true := by
  unfold readPlain at isRead
  split at isRead
  · rename_i word value found
    cases isRead
    have eachIsJson : ∀ word ∈ words, word.2.isJson = true := by
      decide
    exact eachIsJson _ (List.mem_of_find?_eq_some found)
  · exact isJson_of_readNumber isRead

/-- A property of values that lists and objects have together with their parts. -/
structure IsInherited (holds : Value → Prop) : Prop where
  scalar : ∀ scalar : Scalar, scalar.isJson = true → holds (.scalar scalar)
  list : ∀ items : List Value, (∀ item ∈ items, holds item) → holds (.list items)
  mapping :
    ∀ entries : Mapping, (∀ entry ∈ entries, entry.1.isText = true ∧ holds entry.2) →
      holds (.mapping (Mapping.ofEntries entries))

section Inheritance

variable {holds : Value → Prop}

mutual

/-- Whatever is read has every inherited property; the recursion is on the fuel. -/
theorem holds_of_readValue
    (inherited : IsInherited holds)
    {depth : Nat}
    {cursor behind : Cursor}
    {value : Value} :
    ∀ {fuel : Nat},
      readValue depth fuel cursor = .ok (value, behind) → holds value
  | 0, isRead => by
      rw [readValue] at isRead
      contradiction
  | fuel + 1, isRead => by
      rw [readValue] at isRead
      split at isRead
      · contradiction
      · dsimp only at isRead
        split_ifs at isRead
        · obtain ⟨⟨string, _⟩, isString, isValue⟩ := bind_eq_ok_iff.mp isRead
          cases isValue
          exact inherited.scalar _ (Value.isJson_of_isText (isText_of_readString isString))
        · cases isRead
          exact inherited.mapping [] nofun
        · obtain ⟨⟨entries, _⟩, isEntries, isValue⟩ := bind_eq_ok_iff.mp isRead
          cases isValue
          exact inherited.mapping entries (holds_of_readEntries inherited isEntries)
        · cases isRead
          exact inherited.list [] nofun
        · obtain ⟨⟨items, _⟩, isItems, isValue⟩ := bind_eq_ok_iff.mp isRead
          cases isValue
          exact inherited.list items (holds_of_readItems inherited isItems)
        · obtain ⟨⟨scalar, _⟩, isScalar, isValue⟩ := bind_eq_ok_iff.mp isRead
          cases isValue
          exact inherited.scalar scalar (isJson_of_readPlain isScalar)

theorem holds_of_readItems
    (inherited : IsInherited holds)
    {depth : Nat}
    {cursor behind : Cursor}
    {items : List Value} :
    ∀ {fuel : Nat},
      readItems depth fuel cursor = .ok (items, behind) → ∀ item ∈ items, holds item
  | 0, isRead => by
      rw [readItems] at isRead
      contradiction
  | fuel + 1, isRead => by
      rw [readItems] at isRead
      obtain ⟨⟨item, behindItem⟩, isItem, isRead⟩ := bind_eq_ok_iff.mp isRead
      have atItem := holds_of_readValue inherited isItem
      dsimp only at isRead
      split at isRead
      · cases isRead
        simpa using atItem
      · obtain ⟨⟨others, _⟩, isOthers, isItems⟩ := bind_eq_ok_iff.mp isRead
        cases isItems
        exact List.forall_mem_cons.mpr ⟨atItem, holds_of_readItems inherited isOthers⟩
      · contradiction

theorem holds_of_readEntries
    (inherited : IsInherited holds)
    {depth : Nat}
    {cursor behind : Cursor}
    {entries : Mapping} :
    ∀ {fuel : Nat},
      readEntries depth fuel cursor = .ok (entries, behind) →
        ∀ entry ∈ entries, entry.1.isText = true ∧ holds entry.2
  | 0, isRead => by
      rw [readEntries] at isRead
      contradiction
  | fuel + 1, isRead => by
      rw [readEntries] at isRead
      split at isRead
      · obtain ⟨⟨key, behindKey⟩, isKey, isRead⟩ := bind_eq_ok_iff.mp isRead
        have keyIsText := isText_of_readString isKey
        dsimp only at isRead
        split at isRead
        · obtain ⟨⟨value, behindValue⟩, isValue, isRead⟩ := bind_eq_ok_iff.mp isRead
          have atValue := holds_of_readValue inherited isValue
          dsimp only at isRead
          split at isRead
          · cases isRead
            exact List.forall_mem_singleton.mpr ⟨keyIsText, atValue⟩
          · obtain ⟨⟨others, _⟩, isOthers, isEntries⟩ := bind_eq_ok_iff.mp isRead
            cases isEntries
            exact List.forall_mem_cons.mpr
              ⟨⟨keyIsText, atValue⟩, holds_of_readEntries inherited isOthers⟩
          · contradiction
        · contradiction
      · contradiction

end

/-- The reader of JSON documents returns values with every inherited property. -/
theorem holds_of_read
    (inherited : IsInherited holds)
    {chars : List Char}
    {value : Value}
    (isRead : read chars = .ok value) :
    holds value := by
  unfold read at isRead
  split at isRead
  · contradiction
  · obtain ⟨⟨original, behind⟩, isOriginal, isRead⟩ := bind_eq_ok_iff.mp isRead
    dsimp only at isRead
    split at isRead
    · cases isRead
      exact holds_of_readValue inherited isOriginal
    · contradiction

end Inheritance

/-- The reader of JSON documents returns values of JSON documents only. -/
theorem isJson_of_read
    {chars : List Char}
    {value : Value}
    (isRead : read chars = .ok value) :
    value.isJson = true := by
  have inherited : IsInherited fun value => value.isJson = true := by
    constructor
    · exact fun _ isJson => isJson
    · exact fun _ areJson => Value.isJson_list.mpr areJson
    · exact fun _ areJson => Value.isJson_mapping.mpr (Mapping.IsJson.ofEntries areJson)
  exact holds_of_read inherited isRead

end Json

end ZodSchemas
