import Mathlib.Logic.Relation
import ZodSchemas.Proofs.Decoding

namespace ZodSchemas.Decode

/-!
# Formats of documents

A format says which keys the objects of a document recognise, and what stands
under them.  A value is widened by a key that is not recognised, in itself or in
one of its parts.  Whatever is read field by field ignores such keys, level by
level: a record does if its fields do, and a list if its items do.
-/

open Data
open Data.Mapping

/-- What a value is made of. -/
inductive Format where
  /-- A value that is read as a whole. -/
  | whole
  /-- An object with the fields that it recognises. -/
  | record (fields : List (FieldName × Format))
  | list (item : Format)
  /-- An object with any keys. -/
  | dictionary (item : Format)
  | either (first second : Format)

namespace Format

/-- Fields that are read as a whole. -/
def wholes (names : List FieldName) : List (FieldName × Format) :=
  names.map fun name => (name, .whole)

/-- The format of what stands under a key, if the key is recognised in either spelling. -/
def part? (fields : List (FieldName × Format)) (key : String) : Option Format :=
  (fields.find? fun field => field.1.document == key || field.1.plain == key).map (·.2)

/-- A value has been widened by one new key, with any value, that its place does not recognise. -/
inductive Widens : Format → Value → Value → Prop where
  | here
      {fields : List (FieldName × Format)}
      {key : String}
      (unknown : part? fields key = none)
      {front behind : Mapping}
      (new : Mapping.get? (front ++ behind) key = none)
      (value : Value) :
      Widens (.record fields) (.mapping (front ++ behind))
        (.mapping (front ++ (.text key, value) :: behind))
  | under
      {fields : List (FieldName × Format)}
      {key : String}
      {part : Format}
      (known : part? fields key = some part)
      {old wider : Value}
      (widens : Widens part old wider)
      (front behind : Mapping) :
      Widens (.record fields) (.mapping (front ++ (.text key, old) :: behind))
        (.mapping (front ++ (.text key, wider) :: behind))
  | item
      {item : Format}
      {old wider : Value}
      (widens : Widens item old wider)
      (front behind : List Value) :
      Widens (.list item) (.list (front ++ old :: behind)) (.list (front ++ wider :: behind))
  | entry
      {item : Format}
      {old wider : Value}
      (widens : Widens item old wider)
      (key : Scalar)
      (front behind : Mapping) :
      Widens (.dictionary item) (.mapping (front ++ (key, old) :: behind))
        (.mapping (front ++ (key, wider) :: behind))
  | first
      {first : Format}
      {old wider : Value}
      (widens : Widens first old wider)
      (second : Format) :
      Widens (.either first second) old wider
  | second
      {second : Format}
      {old wider : Value}
      (widens : Widens second old wider)
      (first : Format) :
      Widens (.either first second) old wider

/-- A value has been widened by one key, or is the same. -/
abbrev Alike (format : Format) : Value → Value → Prop :=
  Relation.ReflGen format.Widens

/-- A reading does not notice that a value has been widened. -/
def IsIgnoredBy (format : Format) (read : Value → β) : Prop :=
  ∀ ⦃old wider⦄, format.Widens old wider → read wider = read old

/-- A reading of entries does not notice that they have been widened. -/
def AreIgnoredBy (fields : List (FieldName × Format)) (read : Mapping → β) : Prop :=
  ∀ ⦃entries wider⦄, (record fields).Widens (.mapping entries) (.mapping wider) →
    read wider = read entries

variable {fields : List (FieldName × Format)} {part item : Format}

theorem IsIgnoredBy.of_alike
    {format : Format}
    {read : Value → β}
    (ignored : format.IsIgnoredBy read)
    {old wider : Value}
    (alike : format.Alike old wider) :
    read wider = read old := by
  cases alike with
  | refl =>
      rfl
  | single widens =>
      exact ignored widens

/-- Nothing is added to a value that is read as a whole. -/
theorem isIgnoredBy_whole
    (read : Value → β) :
    whole.IsIgnoredBy read := by
  rintro old wider ⟨⟩

section Lists

/-- A widened list has as many items, each of them widened or the same. -/
theorem exists_items_of_alike
    {items : List Value}
    {wider : Value}
    (alike : (list item).Alike (.list items) wider) :
    ∃ widerItems, wider = .list widerItems ∧ List.Forall₂ item.Alike items widerItems := by
  have same (items : List Value) : List.Forall₂ item.Alike items items :=
    List.forall₂_same.mpr fun _ _ => .refl
  cases alike with
  | refl =>
      exact ⟨items, rfl, same items⟩
  | single widens =>
      cases widens with
      | item widens front behind =>
          exact ⟨_, rfl, List.rel_append (same front) (.cons (.single widens) (same behind))⟩

theorem map_of_forall₂
    {read : Value → β}
    (ignored : item.IsIgnoredBy read)
    {items wider : List Value}
    (alike : List.Forall₂ item.Alike items wider) :
    wider.map read = items.map read := by
  induction alike with
  | nil =>
      rfl
  | cons atItem _ inductionHypothesis =>
      rw [List.map_cons, List.map_cons, ignored.of_alike atItem, inductionHypothesis]

theorem mapM_of_forall₂
    {monad : Type → Type}
    [Monad monad]
    [LawfulMonad monad]
    {read : Value → monad β}
    (ignored : item.IsIgnoredBy read)
    {items wider : List Value}
    (alike : List.Forall₂ item.Alike items wider) :
    wider.mapM read = items.mapM read := by
  have results (items : List Value) : items.mapM read = (items.map read).mapM id := by
    rw [List.mapM_map]
    rfl
  rw [results, results, map_of_forall₂ ignored alike]

theorem itemsFrom_of_forall₂
    {decode : Value → Decoded α}
    (ignored : item.IsIgnoredBy decode)
    {items wider : List Value}
    (alike : List.Forall₂ item.Alike items wider)
    (position : Nat) :
    itemsFrom decode position wider = itemsFrom decode position items := by
  induction alike generalizing position with
  | nil =>
      rfl
  | cons atItem _ inductionHypothesis =>
      rw [itemsFrom, itemsFrom, ignored.of_alike atItem, inductionHypothesis]

theorem list_of_forall₂
    {decode : Value → Decoded α}
    (ignored : item.IsIgnoredBy decode)
    {items wider : List Value}
    (alike : List.Forall₂ item.Alike items wider) :
    Decode.list decode (.list wider) = Decode.list decode (.list items) := by
  rw [Decode.list, Decode.list, itemsFrom_of_forall₂ ignored alike]

theorem isIgnoredBy_of_items
    {read : Value → β}
    (ignored : ∀ items wider, List.Forall₂ item.Alike items wider →
      read (.list wider) = read (.list items)) :
    (list item).IsIgnoredBy read := by
  rintro old wider widens
  cases widens with
  | item widens front behind =>
      obtain ⟨widerItems, same, alike⟩ :=
        exists_items_of_alike (.single (.item widens front behind))
      rw [same]
      exact ignored _ _ alike

/-- A list ignores what its items ignore. -/
theorem IsIgnoredBy.list
    {decode : Value → Decoded α}
    (ignored : item.IsIgnoredBy decode) :
    (Format.list item).IsIgnoredBy (Decode.list decode) :=
  isIgnoredBy_of_items fun _ _ => list_of_forall₂ ignored

end Lists

section Fields

theorem get?_append
    (front behind : Mapping)
    (key : String) :
    Mapping.get? (front ++ behind) key = (front.get? key).or (behind.get? key) := by
  rw [Mapping.get?, Mapping.get?, Mapping.get?, Mapping.find?, List.find?_append, Option.map_or]
  rfl

theorem optionRel_refl
    (part : Format)
    (value : Option Value) :
    Option.Rel part.Alike value value := by
  cases value with
  | none =>
      exact .none
  | some value =>
      exact .some .refl

theorem optionRel_or
    {related : α → β → Prop}
    {first second : Option α}
    {others further : Option β}
    (rel : Option.Rel related first others)
    (alsoRel : Option.Rel related second further) :
    Option.Rel related (first.or second) (others.or further) := by
  cases rel with
  | none =>
      exact alsoRel
  | some atValue =>
      exact .some atValue

theorem optionRel_map
    {related : α → β → Prop}
    {first : Option α}
    {other : Option β}
    (rel : Option.Rel related first other)
    {relatedToo : γ → δ → Prop}
    {step : α → γ}
    {stepToo : β → δ}
    (maps : ∀ value valueToo, related value valueToo → relatedToo (step value) (stepToo valueToo)) :
    Option.Rel relatedToo (first.map step) (other.map stepToo) := by
  cases rel with
  | none =>
      exact .none
  | some atValue =>
      exact .some (maps _ _ atValue)

/-- What stands under a key that is recognised is widened at most. -/
theorem get?_of_widens
    {entries wider : Mapping}
    (widens : (record fields).Widens (.mapping entries) (.mapping wider))
    {key : String}
    (known : part? fields key = some part) :
    Option.Rel part.Alike (entries.get? key) (wider.get? key) := by
  have refl (value : Option Value) : Option.Rel part.Alike value value :=
    optionRel_refl part value
  cases widens with
  | here unknown new value =>
      rename_i added front behind
      -- A key that is recognised is not the one that has been added.
      have different : added ≠ key := by
        rintro rfl
        rw [known] at unknown
        contradiction
      rw [get?_append, get?_append, get?_cons, if_neg (by simpa using different)]
      exact refl _
  | under atKey widens front behind =>
      rename_i changed changedPart old wider
      rw [get?_append, get?_append, get?_cons, get?_cons]
      by_cases same : changed = key
      · subst same
        obtain rfl : changedPart = part := Option.some.inj (atKey.symm.trans known)
        rw [if_pos rfl, if_pos rfl]
        exact optionRel_or (refl _) (.some (.single widens))
      · rw [if_neg (by simpa using same), if_neg (by simpa using same)]
        exact refl _

/-- A field is recognised in both spellings, and has one format. -/
structure IsField (fields : List (FieldName × Format)) (name : FieldName) (part : Format) :
    Prop where
  document : part? fields name.document = some part
  plain : part? fields name.plain = some part

variable {name : FieldName}

/-- A field is found under the same spelling, and its value is widened at most. -/
theorem find?_of_widens
    {entries wider : Mapping}
    (widens : (record fields).Widens (.mapping entries) (.mapping wider))
    (isField : IsField fields name part) :
    Option.Rel (fun found foundToo => found.1 = foundToo.1 ∧ part.Alike found.2 foundToo.2)
      (name.find? entries) (name.find? wider) := by
  have inDocument := get?_of_widens widens isField.document
  have inPlain := get?_of_widens widens isField.plain
  unfold FieldName.find?
  generalize entries.get? name.document = ownDocument,
    wider.get? name.document = widerDocument at inDocument ⊢
  generalize entries.get? name.plain = ownPlain, wider.get? name.plain = widerPlain at inPlain ⊢
  cases inDocument with
  | some alike =>
      exact .some ⟨rfl, alike⟩
  | none =>
      cases inPlain with
      | some alike =>
          exact .some ⟨rfl, alike⟩
      | none =>
          exact .none

theorem areIgnoredBy_required
    {decode : Value → Decoded α}
    (isField : IsField fields name part)
    (ignored : part.IsIgnoredBy decode) :
    AreIgnoredBy fields (required name decode) := by
  intro entries wider widens
  have found := find?_of_widens widens isField
  unfold required
  generalize name.find? entries = own, name.find? wider = widerOwn at found ⊢
  cases found with
  | some both =>
      obtain ⟨sameSpelling, alike⟩ := both
      dsimp only
      rw [sameSpelling, ignored.of_alike alike]
  | none =>
      rfl

theorem areIgnoredBy_optional
    {decode : Value → Decoded α}
    {absent : α}
    (isField : IsField fields name part)
    (ignored : part.IsIgnoredBy decode) :
    AreIgnoredBy fields (optional name absent decode) := by
  intro entries wider widens
  have found := find?_of_widens widens isField
  unfold optional
  generalize name.find? entries = own, name.find? wider = widerOwn at found ⊢
  cases found with
  | some both =>
      obtain ⟨sameSpelling, alike⟩ := both
      dsimp only
      rw [sameSpelling, ignored.of_alike alike]
  | none =>
      rfl

theorem AreIgnoredBy.map
    {decode : Mapping → Decoded α}
    (ignored : AreIgnoredBy fields decode)
    (transform : α → β) :
    AreIgnoredBy fields fun entries => transform <$> decode entries := by
  intro entries wider widens
  dsimp only
  rw [ignored widens]

theorem AreIgnoredBy.seq
    {transform : Mapping → Decoded (α → β)}
    {decode : Mapping → Decoded α}
    (ignored : AreIgnoredBy fields transform)
    (ignoredToo : AreIgnoredBy fields decode) :
    AreIgnoredBy fields fun entries => transform entries <*> decode entries := by
  intro entries wider widens
  dsimp only
  rw [ignored widens, ignoredToo widens]

/-- A record ignores what its fields ignore. -/
theorem AreIgnoredBy.record
    {decode : Mapping → Decoded α}
    (ignored : AreIgnoredBy fields decode)
    (name : String) :
    (Format.record fields).IsIgnoredBy (Decode.record name decode) := by
  intro old wider widens
  cases widens with
  | here unknown new value =>
      exact ignored (.here unknown new value)
  | under known widens front behind =>
      exact ignored (.under known widens front behind)

/-- An object with any keys ignores what its values ignore. -/
theorem IsIgnoredBy.dictionary
    {decode : Value → Decoded α}
    (ignored : item.IsIgnoredBy decode) :
    (Format.dictionary item).IsIgnoredBy (Decode.dictionary decode) := by
  intro old wider widens
  cases widens with
  | entry widens key front behind =>
      simp only [Decode.dictionary, List.map_append, List.map_cons, ignored widens]

end Fields

/-- Only lists and objects are widened. -/
theorem ne_null_of_widens
    {format : Format}
    {old wider : Value}
    (widens : format.Widens old wider) :
    old ≠ .null ∧ wider ≠ .null := by
  induction widens with
  | here | under | item | entry =>
      exact ⟨nofun, nofun⟩
  | first _ _ inductionHypothesis | second _ _ inductionHypothesis =>
      exact inductionHypothesis

theorem orNull_of_ne_null
    {value : Value}
    (notNull : value ≠ .null)
    (decode : Value → Decoded α) :
    orNull decode value = (decode value).map some := by
  unfold orNull
  split
  · contradiction
  · rfl

theorem IsIgnoredBy.orNull
    {format : Format}
    {decode : Value → Decoded α}
    (ignored : format.IsIgnoredBy decode) :
    format.IsIgnoredBy (Decode.orNull decode) := by
  intro old wider widens
  obtain ⟨notNull, stillNotNull⟩ := ne_null_of_widens widens
  rw [orNull_of_ne_null notNull, orNull_of_ne_null stillNotNull, ignored widens]

end Format

end ZodSchemas.Decode
