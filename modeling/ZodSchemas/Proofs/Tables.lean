import Mathlib.Data.List.Induction
import Mathlib.Data.List.Nodup
import ZodSchemas.Assembly.Plan
import ZodSchemas.Decode.Metadata

namespace ZodSchemas

/-!
# Lists without repetitions and tables by key

A table is filled from left to right.  A key keeps the place at which it is
first set and takes the value that is set last, so the keys of a filled table
are the first occurrences of the keys that were set.  The contents of rendered
files by their paths and the renaming of raw operations are such tables.
-/

namespace Metadata

@[simp] theorem mem_distinct
    [DecidableEq α]
    {item : α}
    {items : List α} :
    item ∈ distinct items ↔ item ∈ items := by
  induction items with
  | nil =>
      simp [distinct]
  | cons head rest inductionHypothesis =>
      by_cases same : item = head <;>
        simp [distinct, inductionHypothesis, same]

theorem distinct_eq_self
    [DecidableEq α]
    {items : List α}
    (noDuplicates : items.Nodup) :
    distinct items = items := by
  induction items with
  | nil =>
      rfl
  | cons head rest inductionHypothesis =>
      obtain ⟨headFresh, restNodup⟩ := List.nodup_cons.mp noDuplicates
      rw [distinct, inductionHypothesis restNodup]
      congr 1
      rw [List.filter_eq_self]
      intro item member
      have different : item ≠ head := fun same => headFresh (same ▸ member)
      simpa using different

theorem nodup_distinct
    [DecidableEq α]
    (items : List α) :
    (distinct items).Nodup := by
  induction items with
  | nil =>
      exact .nil
  | cons head rest inductionHypothesis =>
      rw [distinct, List.nodup_cons]
      exact ⟨by simp, inductionHypothesis.filter _⟩

theorem perm_distinct
    [DecidableEq α]
    {first second : List α}
    (rearranged : first.Perm second) :
    (distinct first).Perm (distinct second) := by
  rw [List.perm_ext_iff_of_nodup (nodup_distinct _) (nodup_distinct _)]
  intro item
  rw [mem_distinct, mem_distinct, rearranged.mem_iff]

/-- Whether the last item stays depends on whether it has occurred before. -/
theorem distinct_concat
    [DecidableEq α]
    (items : List α)
    (last : α) :
    distinct (items ++ [last]) =
      if last ∈ items then distinct items
      else distinct items ++ [last] := by
  induction items with
  | nil =>
      rfl
  | cons head rest inductionHypothesis =>
      simp only [List.cons_append, distinct, inductionHypothesis]
      by_cases inRest : last ∈ rest
      · simp [inRest]
      · by_cases same : last = head
        · subst last
          simp [inRest]
        · simp [inRest, same]

/-- Setting a key adds nothing but the new entry. -/
theorem mem_of_mem_updateEntry
    {key : String}
    {value : α}
    {entry : String × α}
    {table : List (String × α)}
    (member : entry ∈ updateEntry key value (fun _ => value) table) :
    entry = (key, value) ∨ entry ∈ table := by
  induction table with
  | nil =>
      simpa [updateEntry] using member
  | cons head rest inductionHypothesis =>
      obtain ⟨other, old⟩ := head
      by_cases same : other = key
      · subst other
        simp only [updateEntry, ↓reduceIte, List.mem_cons] at member ⊢
        rcases member with atHead | inRest
        · exact .inl atHead
        · exact .inr (.inr inRest)
      · simp only [updateEntry, same, ↓reduceIte, List.mem_cons] at member ⊢
        rcases member with atHead | inRest
        · exact .inr (.inl atHead)
        · exact (inductionHypothesis inRest).imp_right .inr

/-- A key that is set for the first time comes last, any other one keeps its place. -/
theorem map_fst_updateEntry
    (key : String)
    (initial : α)
    (update : α → α)
    (table : List (String × α)) :
    (updateEntry key initial update table).map Prod.fst =
      if key ∈ table.map Prod.fst then table.map Prod.fst
      else table.map Prod.fst ++ [key] := by
  induction table with
  | nil =>
      rfl
  | cons head rest inductionHypothesis =>
      obtain ⟨other, old⟩ := head
      by_cases same : other = key
      · simp [updateEntry, same]
      · have different : key ≠ other := Ne.symm same
        simp only [updateEntry, same, ↓reduceIte, List.map_cons,
          inductionHypothesis, List.mem_cons, different, false_or]
        split <;> rfl

theorem updateEntry_of_absent
    {key : String}
    {initial : α}
    {update : α → α}
    {table : List (String × α)}
    (absent : key ∉ table.map Prod.fst) :
    updateEntry key initial update table = table ++ [(key, update initial)] := by
  induction table with
  | nil =>
      rfl
  | cons head rest inductionHypothesis =>
      obtain ⟨notHead, notInRest⟩ := not_or.mp (List.mem_cons.not.mp absent)
      rw [updateEntry, if_neg (Ne.symm notHead), inductionHypothesis notInRest, List.cons_append]

/-- Where the keys are distinct, the item that has a key is the one that is found. -/
theorem find?_eq_some_iff_of_nodup
    {keyOf : β → String}
    {items : List β}
    (apart : (items.map keyOf).Nodup)
    {key : String}
    {item : β} :
    items.find? (keyOf · == key) = some item ↔ item ∈ items ∧ keyOf item = key := by
  constructor
  · intro found
    exact ⟨List.mem_of_find?_eq_some found, by simpa using List.find?_some found⟩
  · rintro ⟨member, rfl⟩
    obtain ⟨other, found⟩ : ∃ other, items.find? (keyOf · == keyOf item) = some other := by
      rw [← Option.isSome_iff_exists, List.find?_isSome]
      exact ⟨item, member, beq_self_eq_true _⟩
    have sameKey : keyOf other = keyOf item := by
      simpa using List.find?_some found
    rw [found, List.inj_on_of_nodup_map apart (List.mem_of_find?_eq_some found) member sameKey]

theorem find?_eq_of_perm
    {keyOf : β → String}
    {first second : List β}
    (rearranged : first.Perm second)
    (apart : (first.map keyOf).Nodup)
    (key : String) :
    first.find? (keyOf · == key) = second.find? (keyOf · == key) := by
  have alsoApart : (second.map keyOf).Nodup :=
    (rearranged.map keyOf).nodup_iff.mp apart
  refine Option.ext fun item => ?_
  rw [find?_eq_some_iff_of_nodup apart, find?_eq_some_iff_of_nodup alsoApart, rearranged.mem_iff]

theorem lookup_cons_eq_ite
    (key : String)
    (value : α)
    (rest : List (String × α))
    (name : String) :
    ((key, value) :: rest).lookup name = if name = key then some value else rest.lookup name := by
  rw [List.lookup_cons]
  by_cases isKey : name = key
  · rw [if_pos isKey, beq_iff_eq.mpr isKey]
  · rw [if_neg isKey, beq_eq_false_iff_ne.mpr isKey]

/-- Setting a key changes the value under this key only. -/
theorem lookup_updateEntry
    (key : String)
    (initial : α)
    (update : α → α)
    (table : List (String × α))
    (name : String) :
    (updateEntry key initial update table).lookup name =
      if name = key then some (update ((table.lookup key).getD initial))
      else table.lookup name := by
  induction table with
  | nil =>
      rw [updateEntry, lookup_cons_eq_ite]
      rfl
  | cons head rest inductionHypothesis =>
      obtain ⟨other, value⟩ := head
      by_cases atHead : other = key
      · subst other
        by_cases isKey : name = key <;>
          simp [updateEntry, lookup_cons_eq_ite, isKey]
      · rw [updateEntry, if_neg atHead, lookup_cons_eq_ite, lookup_cons_eq_ite,
          lookup_cons_eq_ite, inductionHypothesis, if_neg (Ne.symm atHead)]
        by_cases isKey : name = key
        · rw [if_pos isKey, if_pos isKey, if_neg (isKey ▸ Ne.symm atHead)]
        · rw [if_neg isKey, if_neg isKey]

/-- Where the keys are distinct, the entries are what is found. -/
theorem lookup_eq_some_iff_mem
    {entries : List (String × α)}
    (apart : (entries.map Prod.fst).Nodup)
    {name : String}
    {value : α} :
    entries.lookup name = some value ↔ (name, value) ∈ entries := by
  induction entries with
  | nil =>
      simp
  | cons head rest inductionHypothesis =>
      obtain ⟨key, first⟩ := head
      rw [List.map_cons, List.nodup_cons] at apart
      rw [lookup_cons_eq_ite, List.mem_cons]
      by_cases isKey : name = key
      · subst name
        have noOther : (key, value) ∉ rest :=
          fun member => apart.1 (List.mem_map.mpr ⟨_, member, rfl⟩)
        simp [noOther, eq_comm]
      · simp [isKey, inductionHypothesis apart.2]

/-- Where the keys are distinct, the order of entries does not matter to what is found. -/
theorem lookup_eq_of_perm
    {first second : List (String × α)}
    (rearranged : first.Perm second)
    (apart : (first.map Prod.fst).Nodup)
    (name : String) :
    first.lookup name = second.lookup name := by
  have alsoApart : (second.map Prod.fst).Nodup :=
    (rearranged.map Prod.fst).nodup_iff.mp apart
  refine Option.ext fun value => ?_
  rw [lookup_eq_some_iff_mem apart, lookup_eq_some_iff_mem alsoApart, rearranged.mem_iff]

/-- The table that setting the keys of some items in turn leaves. -/
def tableOf
    (entryOf : β → String × α)
    (items : List β) :
    List (String × α) :=
  items.foldl
    (fun table item =>
      updateEntry (entryOf item).1 (entryOf item).2 (fun _ => (entryOf item).2) table) []

theorem tableOf_eq_tableOf_map
    (entryOf : β → String × α)
    (items : List β) :
    tableOf entryOf items = tableOf id (items.map entryOf) := by
  rw [tableOf, tableOf, List.foldl_map]
  rfl

theorem tableOf_concat
    (entryOf : β → String × α)
    (items : List β)
    (last : β) :
    tableOf entryOf (items ++ [last]) =
      updateEntry (entryOf last).1 (entryOf last).2 (fun _ => (entryOf last).2)
        (tableOf entryOf items) := by
  simp [tableOf]

theorem exists_of_mem_tableOf
    {entryOf : β → String × α}
    {items : List β}
    {entry : String × α}
    (member : entry ∈ tableOf entryOf items) :
    ∃ item ∈ items, entryOf item = entry := by
  induction items using List.reverseRecOn with
  | nil =>
      simp [tableOf] at member
  | append_singleton earlier last inductionHypothesis =>
      rw [tableOf_concat] at member
      rcases mem_of_mem_updateEntry member with isLast | inEarlier
      · exact ⟨last, by simp, isLast.symm⟩
      · obtain ⟨item, itemMember, same⟩ := inductionHypothesis inEarlier
        exact ⟨item, by simp [itemMember], same⟩

/-- The keys of a filled table are the first occurrences of the keys of the items. -/
theorem map_fst_tableOf
    (entryOf : β → String × α)
    (items : List β) :
    (tableOf entryOf items).map Prod.fst =
      distinct (items.map fun item => (entryOf item).1) := by
  induction items using List.reverseRecOn with
  | nil =>
      rfl
  | append_singleton earlier last inductionHypothesis =>
      rw [tableOf_concat, map_fst_updateEntry, inductionHypothesis,
        List.map_append, List.map_singleton, distinct_concat]
      simp only [mem_distinct]

/-- The value that is set last is the one that is found. -/
theorem lookup_tableOf_concat
    (entryOf : β → String × α)
    (items : List β)
    (last : β)
    (name : String) :
    (tableOf entryOf (items ++ [last])).lookup name =
      if name = (entryOf last).1 then some (entryOf last).2
      else (tableOf entryOf items).lookup name := by
  rw [tableOf_concat, lookup_updateEntry]

/-- Where no entry contradicts another one, each of them is found. -/
theorem lookup_tableOf_id_eq_some_iff
    {entries : List (String × α)}
    (keysTell : ∀ entry ∈ entries, ∀ other ∈ entries, entry.1 = other.1 → entry = other)
    {name : String}
    {value : α} :
    (tableOf id entries).lookup name = some value ↔ (name, value) ∈ entries := by
  induction entries using List.reverseRecOn with
  | nil =>
      simp [tableOf]
  | append_singleton earlier last inductionHypothesis =>
      have amongEarlier :
          ∀ entry ∈ earlier, ∀ other ∈ earlier, entry.1 = other.1 → entry = other :=
        fun entry member other otherMember =>
          keysTell entry (List.mem_append_left _ member) other
            (List.mem_append_left _ otherMember)
      rw [lookup_tableOf_concat, List.mem_append, List.mem_singleton, id_eq]
      by_cases isLast : name = last.1
      · rw [if_pos isLast, Option.some.injEq]
        constructor
        · rintro rfl
          exact .inr (Prod.ext isLast rfl)
        · rintro (inEarlier | atLast)
          · exact congrArg Prod.snd (keysTell last (by simp) (name, value) (by simp [inEarlier])
              isLast.symm)
          · exact congrArg Prod.snd atLast.symm
      · rw [if_neg isLast, inductionHypothesis amongEarlier]
        refine (or_iff_left fun atLast => isLast ?_).symm
        rw [← atLast]

/-- Entries with keys of their own are a table. -/
theorem tableOf_id_eq_self
    {entries : List (String × α)}
    (apart : (entries.map Prod.fst).Nodup) :
    tableOf id entries = entries := by
  induction entries using List.reverseRecOn with
  | nil =>
      rfl
  | append_singleton earlier last inductionHypothesis =>
      rw [List.map_append, List.nodup_append] at apart
      obtain ⟨apartEarlier, -, fresh⟩ := apart
      have absent : last.1 ∉ earlier.map Prod.fst :=
        fun present => fresh _ present _ (.head _) rfl
      rw [tableOf_concat, inductionHypothesis apartEarlier]
      exact updateEntry_of_absent absent

end Metadata

theorem Text.sorted_eq_nil_iff
    {texts : List String} :
    Text.sorted texts = [] ↔ texts = [] := by
  have sameLength := (List.mergeSort_perm texts Text.isAtMost).length_eq
  rw [← List.length_eq_zero_iff, Text.sorted, sameLength, List.length_eq_zero_iff]

/-- No text is reported as repeated exactly when no text occurs twice. -/
theorem Decode.duplicates_eq_nil_iff
    {names : List String} :
    Decode.duplicates names = [] ↔ names.Nodup := by
  rw [Decode.duplicates, Text.sorted_eq_nil_iff, List.filter_eq_nil_iff,
    List.nodup_iff_count_le_one]
  constructor
  · intro few name
    by_cases member : name ∈ names
    · simpa using few name (Metadata.mem_distinct.mpr member)
    · simp [List.count_eq_zero_of_not_mem member]
  · intro few name _
    simpa using few name

namespace Assembly

open Metadata

theorem contentsByPath_eq_tableOf
    (files : List RenderedFile) :
    contentsByPath files = tableOf (fun file => (file.path, file.content)) files :=
  rfl

end Assembly

end ZodSchemas
