import Mathlib.Data.List.Perm.Basic
import ZodSchemas.Proofs.UnitNames

namespace ZodSchemas.Metadata

/-!
# Tables that a document implies

The aggregates that a model supports follow from the names of composites, and
the renamed raw operations from the mappings.  Both tables are filled in the
order of the document.  What is found for a model in the first one never depends
on that order, and what is found in the second one does not as long as only the
two known raw operations are listed.
-/

section Support

/-- Whether a composite shows by its name that a model supports an aggregate. -/
def shows (model : String) (aggregate : Aggregate) (composite : Composite) : Bool :=
  (aggregateOf? composite.name).any fun shown =>
    shown == aggregate && aggregateModel shown composite.name == model

/-- A table of aggregate support with what the name of one more composite shows. -/
def addShown (table : List (String × AggregateSupport)) (composite : Composite) :
    List (String × AggregateSupport) :=
  match aggregateOf? composite.name with
  | some aggregate =>
      updateEntry (aggregateModel aggregate composite.name) .nothing (·.adding aggregate) table
  | none => table

theorem derivedSupport_eq_foldl
    (document : Document) :
    document.derivedSupport = document.composites.foldl addShown [] :=
  rfl

/-- The support that a table has for a model; a model without an entry supports nothing. -/
def supportIn (table : List (String × AggregateSupport)) (model : String) : AggregateSupport :=
  (table.lookup model).getD .nothing

theorem AggregateSupport.has_adding
    (support : AggregateSupport)
    (added aggregate : Aggregate) :
    (support.adding added).has aggregate = (support.has aggregate || added == aggregate) := by
  cases added <;> cases aggregate <;>
    simp [AggregateSupport.adding, AggregateSupport.has]

theorem AggregateSupport.eq_of_has_eq
    {first second : AggregateSupport}
    (same : ∀ aggregate, first.has aggregate = second.has aggregate) :
    first = second := by
  obtain ⟨count, min, max, avg, sum⟩ := first
  obtain ⟨otherCount, otherMin, otherMax, otherAvg, otherSum⟩ := second
  rw [AggregateSupport.mk.injEq]
  exact ⟨same .count, same .min, same .max, same .avg, same .sum⟩

theorem has_supportIn_addShown
    (table : List (String × AggregateSupport))
    (composite : Composite)
    (model : String)
    (aggregate : Aggregate) :
    (supportIn (addShown table composite) model).has aggregate =
      ((supportIn table model).has aggregate || shows model aggregate composite) := by
  unfold addShown shows
  cases aggregateOf? composite.name with
  | none =>
      simp
  | some shown =>
      by_cases isModel : model = aggregateModel shown composite.name
      · subst model
        simp [supportIn, lookup_updateEntry, AggregateSupport.has_adding]
      · simp [supportIn, lookup_updateEntry, isModel, Ne.symm isModel]

/-- A model supports an aggregate exactly if some composite shows it. -/
theorem has_supportIn_derivedSupport
    (document : Document)
    (model : String)
    (aggregate : Aggregate) :
    (supportIn document.derivedSupport model).has aggregate =
      document.composites.any (shows model aggregate) := by
  rw [derivedSupport_eq_foldl]
  induction document.composites using List.reverseRecOn with
  | nil =>
      cases aggregate <;> rfl
  | append_singleton earlier last inductionHypothesis =>
      rw [List.foldl_concat, has_supportIn_addShown, inductionHypothesis, List.any_append,
        List.any_cons, List.any_nil, Bool.or_false]

end Support

section RawOperations

/-- The entries of raw operations on mapped models, before later ones take over earlier ones. -/
def rawEntries (mappings : List OperationMapping) : List (String × String) :=
  (distinct (mappings.flatMap (·.rawOperations))).flatMap fun operation =>
    mappings.map fun mapping => rawOperationEntry operation mapping.model

/-- The mappings list known raw operations only. -/
def ListsKnownRawOperations (mappings : List OperationMapping) : Prop :=
  ∀ mapping ∈ mappings, ∀ operation ∈ mapping.rawOperations, operation ∈ Operation.rawNames

theorem rawOperationTable_eq
    (mappings : List OperationMapping) :
    rawOperationTable mappings = tableOf id (rawEntries mappings) :=
  rfl

/-- The key of an entry tells the raw operation, as long as it is a known one, and the model. -/
theorem key_rawOperationEntry_inj
    {operation other first second : String}
    (known : operation ∈ Operation.rawNames)
    (otherKnown : other ∈ Operation.rawNames)
    (same : (rawOperationEntry operation first).1 = (rawOperationEntry other second).1) :
    operation = other ∧ first = second := by
  have find : removeAll "Raw" "findRaw" = "find" := by
    simp [removeAll, without]
  have aggregate : removeAll "Raw" "aggregateRaw" = "aggregate" := by
    simp [removeAll, without]
  have apart (model otherModel : String) :
      "find" ++ model ++ "Raw" ≠ "aggregate" ++ otherModel ++ "Raw" := by
    intro same
    have sameHead := congrArg (fun text => text.toList.head?) same
    simp [String.toList_append] at sameHead
  simp only [Operation.rawNames, List.mem_cons, List.not_mem_nil, or_false] at known otherKnown
  rcases known with rfl | rfl <;> rcases otherKnown with rfl | rfl
  · rw [rawOperationEntry, rawOperationEntry, String.append_left_inj, String.append_right_inj]
      at same
    exact ⟨rfl, same⟩
  · rw [rawOperationEntry, rawOperationEntry, find, aggregate] at same
    exact absurd same (apart _ _)
  · rw [rawOperationEntry, rawOperationEntry, find, aggregate] at same
    exact absurd same.symm (apart _ _)
  · rw [rawOperationEntry, rawOperationEntry, String.append_left_inj, String.append_right_inj]
      at same
    exact ⟨rfl, same⟩

variable {first second : List OperationMapping}

theorem mem_rawEntries
    {entry : String × String} :
    entry ∈ rawEntries first ↔
      ∃ lister ∈ first, ∃ operation ∈ lister.rawOperations,
        ∃ mapping ∈ first, rawOperationEntry operation mapping.model = entry := by
  simp only [rawEntries, List.mem_flatMap, mem_distinct, List.mem_map]
  constructor
  · rintro ⟨operation, ⟨lister, isLister, listed⟩, isEntry⟩
    exact ⟨lister, isLister, operation, listed, isEntry⟩
  · rintro ⟨lister, isLister, operation, listed, isEntry⟩
    exact ⟨operation, ⟨lister, isLister, listed⟩, isEntry⟩

/-- No entry takes over one that says something else. -/
theorem eq_of_mem_rawEntries
    (known : ListsKnownRawOperations first)
    {entry other : String × String}
    (member : entry ∈ rawEntries first)
    (otherMember : other ∈ rawEntries first)
    (sameKey : entry.1 = other.1) :
    entry = other := by
  obtain ⟨lister, isLister, operation, listed, mapping, -, rfl⟩ := mem_rawEntries.mp member
  obtain ⟨otherLister, isOtherLister, otherOperation, otherListed, otherMapping, -, rfl⟩ :=
    mem_rawEntries.mp otherMember
  obtain ⟨sameOperation, sameModel⟩ :=
    key_rawOperationEntry_inj (known lister isLister operation listed)
      (known otherLister isOtherLister otherOperation otherListed) sameKey
  rw [sameOperation, sameModel]

/-- Where only known raw operations are listed, what is found depends on the entries that there are,
and not on their order. -/
theorem lookup_rawOperationTable_congr
    (known : ListsKnownRawOperations first)
    (sameEntries : ∀ entry, entry ∈ rawEntries second ↔ entry ∈ rawEntries first)
    (name : String) :
    (rawOperationTable second).lookup name = (rawOperationTable first).lookup name := by
  have keysTell :
      ∀ entry ∈ rawEntries first, ∀ other ∈ rawEntries first, entry.1 = other.1 → entry = other :=
    fun _ member _ otherMember => eq_of_mem_rawEntries known member otherMember
  have keysTellAlso :
      ∀ entry ∈ rawEntries second, ∀ other ∈ rawEntries second,
        entry.1 = other.1 → entry = other := by
    simpa only [sameEntries] using keysTell
  refine Option.ext fun value => ?_
  rw [rawOperationTable_eq, rawOperationTable_eq, lookup_tableOf_id_eq_some_iff keysTell,
    lookup_tableOf_id_eq_some_iff keysTellAlso, sameEntries]

theorem lookup_rawOperationTable_of_perm
    (rearranged : first.Perm second)
    (known : ListsKnownRawOperations first)
    (name : String) :
    (rawOperationTable second).lookup name = (rawOperationTable first).lookup name := by
  refine lookup_rawOperationTable_congr known (fun entry => ?_) name
  simp only [mem_rawEntries, rearranged.mem_iff]

end RawOperations

end ZodSchemas.Metadata
