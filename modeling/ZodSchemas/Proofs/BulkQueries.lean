import ZodSchemas.Proofs.FieldForms
import ZodSchemas.Proofs.PlannedUnits
import ZodSchemas.Proofs.Projections
import ZodSchemas.Proofs.Traversals

namespace ZodSchemas.Assembly

/-!
# References to bulk queries

The argument type of a bulk query is the name of its model with a mark behind it,
and it is read by its first mark.  The first letter of the mark does not occur in
it again, so no mark begins inside the name and ends behind it: the name is read
back unless it contains the mark itself.  If it does, what stands before that
mark is taken for the model, or nothing where the name begins with the mark.
-/

open Metadata

/-- The mark occurs in the name of a model. -/
def ContainsMark (model : String) : Prop :=
  bulkQueryMark.toList <:+: model.toList

/-- The name of a model begins with the mark. -/
def BeginsWithMark (model : String) : Prop :=
  bulkQueryMark.toList <+: model.toList

instance (model : String) : Decidable (ContainsMark model) :=
  inferInstanceAs (Decidable (_ <:+: _))

instance (model : String) : Decidable (BeginsWithMark model) :=
  inferInstanceAs (Decidable (_ <+: _))

/-- Where a text does not contain the mark, the first mark is the one behind the text. -/
theorem before?_mark_of_not_infix
    {text : List Char}
    (absent : ¬ bulkQueryMark.toList <:+: text) :
    before? bulkQueryMark.toList (text ++ bulkQueryMark.toList) = some text := by
  induction text with
  | nil =>
      decide
  | cons first rest inductionHypothesis =>
      have absentInRest : ¬ bulkQueryMark.toList <:+: rest :=
        fun occurs => absent (occurs.trans (List.suffix_cons first rest).isInfix)
      -- The mark begins with a letter that it does not contain again.
      have notHere :
          ¬ bulkQueryMark.toList.isPrefixOf (first :: (rest ++ bulkQueryMark.toList)) = true := by
        intro occurs
        have whole : bulkQueryMark.toList <+: first :: rest :=
          prefix_of_prefix_append (by decide) (List.cons_ne_nil first rest)
            (List.isPrefixOf_iff_prefix.mp occurs)
        exact absent whole.isInfix
      rw [List.cons_append, before?, if_neg notHere, inductionHypothesis absentInRest,
        Option.map_some]

/-- Where a text contains the mark, what is read ends inside the text. -/
theorem exists_before?_of_infix
    {text : List Char}
    (occurs : bulkQueryMark.toList <:+: text)
    (rest : List Char) :
    ∃ front,
      before? bulkQueryMark.toList (text ++ rest) = some front ∧
        front.length < text.length ∧
        (front = [] ↔ bulkQueryMark.toList <+: text) ∧
        ∀ char, front.head? = some char → text.head? = some char := by
  induction text with
  | nil =>
      exact absurd (List.infix_nil.mp occurs) (by decide)
  | cons first chars inductionHypothesis =>
      rw [List.cons_append, before?]
      by_cases here : bulkQueryMark.toList <+: first :: chars
      · have found :
            bulkQueryMark.toList.isPrefixOf (first :: (chars ++ rest)) = true :=
          List.isPrefixOf_iff_prefix.mpr (here.trans (List.prefix_append (first :: chars) rest))
        exact ⟨[], if_pos found, by simp, by simp [here], nofun⟩
      · have later : bulkQueryMark.toList <:+: chars :=
          (List.infix_cons_iff.mp occurs).resolve_left here
        obtain ⟨front, read, shorter, -, -⟩ := inductionHypothesis later
        have longEnough : bulkQueryMark.toList.length ≤ (first :: chars).length :=
          occurs.length_le
        have notFound :
            ¬ bulkQueryMark.toList.isPrefixOf (first :: (chars ++ rest)) = true := by
          intro found
          exact here ((List.isPrefix_append_of_length longEnough).mp
            (List.isPrefixOf_iff_prefix.mp found))
        refine ⟨first :: front, by rw [if_neg notFound, read, Option.map_some], ?_, ?_, ?_⟩
        · simpa using shorter
        · simp [here]
        · simp

/-- A name without the mark is read back. -/
theorem bulkQueryModel?_append_mark
    {model : String}
    (filled : model ≠ "")
    (absent : ¬ ContainsMark model) :
    bulkQueryModel? (model ++ bulkQueryMark) = some model := by
  have someChars : model.toList ≠ [] := by simpa using filled
  rw [bulkQueryModel?, String.toList_append, before?_mark_of_not_infix absent]
  split
  · contradiction
  · rename_i empty
    exact absurd (Option.some.inj empty) someChars
  · rename_i chars _ read
    rw [← Option.some.inj read, String.ofList_toList]

/-- The mark alone is not the argument type of a model. -/
theorem bulkQueryModel?_eq_none_of_empty :
    bulkQueryModel? ("" ++ bulkQueryMark) = none := by
  decide

/-- No model is read from a name that begins with the mark. -/
theorem bulkQueryModel?_eq_none_of_beginsWithMark
    {model : String}
    (begins : BeginsWithMark model) :
    bulkQueryModel? (model ++ bulkQueryMark) = none := by
  obtain ⟨front, read, -, empty, -⟩ :=
    exists_before?_of_infix begins.isInfix bulkQueryMark.toList
  rw [bulkQueryModel?, String.toList_append, read, empty.mpr begins]

/-- From a name with the mark behind its front, another model is read. -/
theorem exists_bulkQueryModel?_of_containsMark
    {model : String}
    (contains : ContainsMark model)
    (elsewhere : ¬ BeginsWithMark model) :
    ∃ other,
      bulkQueryModel? (model ++ bulkQueryMark) = some other ∧
        Text.capitalizeFirst other ≠ Text.capitalizeFirst model := by
  obtain ⟨front, read, shorter, empty, sameHead⟩ :=
    exists_before?_of_infix contains bulkQueryMark.toList
  obtain ⟨first, rest, rfl⟩ := List.exists_cons_of_ne_nil (mt empty.mp elsewhere)
  refine ⟨String.ofList (first :: rest), by rw [bulkQueryModel?, String.toList_append, read], ?_⟩
  obtain ⟨chars, shape⟩ : ∃ chars, model.toList = first :: chars :=
    List.head?_eq_some_iff.mp (sameHead first rfl)
  rw [shape] at shorter
  -- Both names have the same first character, in upper case too, and the rests differ in length.
  intro same
  have sameChars : rest = chars := by
    simpa [Text.capitalizeFirst, shape, String.ofList_inj] using same
  simp [sameChars] at shorter

/-- The only model that is ever read from the argument type of a bulk query is the one it belongs
to, unless the name of that model contains the mark behind its front. -/
theorem forall_read_iff
    {model : String} :
    (∀ other, bulkQueryModel? (model ++ bulkQueryMark) = some other →
        Text.capitalizeFirst other = Text.capitalizeFirst model) ↔
      ¬ ContainsMark model ∨ BeginsWithMark model := by
  constructor
  · intro ownOnly
    by_contra misread
    rw [not_or, not_not] at misread
    obtain ⟨other, read, different⟩ := exists_bulkQueryModel?_of_containsMark misread.1 misread.2
    exact different (ownOnly other read)
  · rintro (absent | begins) other read
    · by_cases empty : model = ""
      · rw [empty, bulkQueryModel?_eq_none_of_empty] at read
        contradiction
      · rw [bulkQueryModel?_append_mark empty absent] at read
        rw [Option.some.inj read]
    · rw [bulkQueryModel?_eq_none_of_beginsWithMark begins] at read
      contradiction

/-- A type at the place of composites that is called like a bulk query of a model, unless there is
an enumeration of that name. -/
structure IsBulkQueryOf
    (context : Context)
    (model : String)
    (alternative : TypeAlternative) : Prop where
  place : alternative.location = .inputObjectTypes
  named : alternative.typeName = model ++ bulkQueryMark
  noEnum : context.isEnum alternative.typeName = false

/-- The unit of the bulk query of a model. -/
def bulkQueryReference (model : String) : Reference :=
  ⟨operationUnitName model .findMany, .operation⟩

theorem bulkQueryReference_inj
    {model other : String} :
    bulkQueryReference model = bulkQueryReference other ↔
      Text.capitalizeFirst model = Text.capitalizeFirst other := by
  simp [bulkQueryReference, operationUnitName_inj]

theorem IsBulkQueryOf.referenceBase?_of_some
    {context : Context}
    {model other : String}
    {alternative : TypeAlternative}
    (query : IsBulkQueryOf context model alternative)
    (read : bulkQueryModel? (model ++ bulkQueryMark) = some other)
    (owner : String) :
    referenceBase? context owner alternative = some (.reference (bulkQueryReference other)) := by
  rw [← query.named] at read
  simp [referenceBase?, referenceKind?, query.place, query.noEnum, read, bulkQueryReference]

theorem IsBulkQueryOf.referenceBase?_of_none
    {context : Context}
    {model : String}
    {alternative : TypeAlternative}
    (query : IsBulkQueryOf context model alternative)
    (unread : bulkQueryModel? (model ++ bulkQueryMark) = none)
    (owner : String) :
    referenceBase? context owner alternative =
      some (compositeReference context owner alternative) := by
  rw [← query.named] at unread
  simp [referenceBase?, referenceKind?, query.place, query.noEnum, unread]

theorem compositeReference_ne_operation
    {context : Context}
    {owner : String}
    {alternative : TypeAlternative}
    {name : String} :
    compositeReference context owner alternative ≠ .reference ⟨name, .operation⟩ := by
  unfold compositeReference
  split <;> simp

/-- Wrappers keep different validators apart. -/
theorem wrapped_inj
    {field : InputField}
    {alternative : TypeAlternative}
    {base other : Expr} :
    wrapped field alternative base = wrapped field alternative other ↔ base = other := by
  cases listed : alternative.isList <;> cases required : field.isRequired <;>
    simp [wrapped, listed, required]

/-- The bulk query of a model refers to the unit of that bulk query exactly when the name of the
model does not contain the mark. -/
theorem IsBulkQueryOf.referenceAlternative?_eq_iff
    {context : Context}
    {model : String}
    {alternative : TypeAlternative}
    (query : IsBulkQueryOf context model alternative)
    (filled : model ≠ "")
    (owner : String)
    (field : InputField) :
    referenceAlternative? context owner field alternative =
        some (wrapped field alternative (.reference (bulkQueryReference model))) ↔
      ¬ ContainsMark model := by
  constructor
  · intro resolved contains
    by_cases begins : BeginsWithMark model
    · have unread := bulkQueryModel?_eq_none_of_beginsWithMark begins
      rw [referenceAlternative?, query.referenceBase?_of_none unread, Option.map_some,
        Option.some.injEq, wrapped_inj] at resolved
      exact compositeReference_ne_operation resolved
    · obtain ⟨other, read, different⟩ :=
        exists_bulkQueryModel?_of_containsMark contains begins
      rw [referenceAlternative?, query.referenceBase?_of_some read, Option.map_some,
        Option.some.injEq, wrapped_inj, Expr.reference.injEq, bulkQueryReference_inj] at resolved
      exact different resolved
  · intro absent
    rw [referenceAlternative?,
      query.referenceBase?_of_some (bulkQueryModel?_append_mark filled absent), Option.map_some]

/-- The projection of a relation refers to no operation but the bulk query of its target. -/
def BindsTargetOnly
    (context : Context)
    (owner : String)
    (relation : ModelField) : Prop :=
  ∃ validator,
    fieldOf? context owner (relationField relation) = some (relation.name, validator) ∧
      ∀ (model : String) (operation : Operation),
        ⟨operationUnitName model operation, .operation⟩ ∈ validator.occurrences →
          operation = .findMany ∧
            Text.capitalizeFirst model = Text.capitalizeFirst relation.typeName

/-- The projection of a relation to many is a flag, or what its argument type refers to. -/
theorem fieldOf?_relationField
    {context : Context}
    {owner : String}
    {relation : ModelField}
    (many : relation.isList = true)
    {base : Expr}
    (resolved :
      referenceBase? context owner (hostAlternative (relation.typeName ++ bulkQueryMark)) =
        some base) :
    fieldOf? context owner (relationField relation) =
      some (relation.name,
        .optional (.union [.primitive "z.boolean()", base.stripOptional])) := by
  have nested :
      alternative? context owner (relationField relation)
          (hostAlternative (relation.typeName ++ bulkQueryMark)) =
        some (.optional base) := by
    change (referenceBase? context owner _).map _ = _
    rw [resolved]
    rfl
  have alternatives :
      (relationField relation).alternatives =
        [flagAlternative, hostAlternative (relation.typeName ++ bulkQueryMark)] := by
    simp [relationField, optionalField, many]
  rw [fieldOf?, fieldExpr?, alternatives, List.filterMap_cons_some (by rfl),
    List.filterMap_cons_some nested]
  rfl

/-- What the projection of a relation refers to is what its argument type refers to. -/
theorem bindsTargetOnly_iff_of_referenceBase?
    {context : Context}
    {owner : String}
    {relation : ModelField}
    (many : relation.isList = true)
    {base : Expr}
    (resolved :
      referenceBase? context owner (hostAlternative (relation.typeName ++ bulkQueryMark)) =
        some base)
    (bare : base.stripOptional = base) :
    BindsTargetOnly context owner relation ↔
      ∀ (model : String) (operation : Operation),
        ⟨operationUnitName model operation, .operation⟩ ∈ base.occurrences →
          operation = .findMany ∧
            Text.capitalizeFirst model = Text.capitalizeFirst relation.typeName := by
  have sameOccurrences :
      (Expr.optional (.union [.primitive "z.boolean()", base.stripOptional])).occurrences =
        base.occurrences := by
    rw [bare]
    simp only [Expr.occurrences, Expr.nodes_eq_walk, Expr.walk, Expr.walkAll, List.append_nil,
      List.cons_append, List.nil_append]
    rfl
  simp [BindsTargetOnly, fieldOf?_relationField many resolved, sameOccurrences]

/-- The projection of a relation to many refers to its target when the model that is read from the
argument type is the target, or none. -/
theorem bindsTargetOnly_iff_read
    {context : Context}
    {relation : ModelField}
    (many : relation.isList = true)
    (noEnum : context.isEnum (relation.typeName ++ bulkQueryMark) = false)
    (owner : String) :
    BindsTargetOnly context owner relation ↔
      ∀ other, bulkQueryModel? (relation.typeName ++ bulkQueryMark) = some other →
        Text.capitalizeFirst other = Text.capitalizeFirst relation.typeName := by
  have query :
      IsBulkQueryOf context relation.typeName
        (hostAlternative (relation.typeName ++ bulkQueryMark)) :=
    ⟨rfl, rfl, noEnum⟩
  cases read : bulkQueryModel? (relation.typeName ++ bulkQueryMark) with
  | none =>
      have isDeferred :
          compositeReference context owner
              (hostAlternative (relation.typeName ++ bulkQueryMark)) =
            .deferred
              (.reference
                ⟨compositeUnitName context (relation.typeName ++ bulkQueryMark), .object⟩)
              none := by
        simp [compositeReference, isDeferred, hostAlternative]
      have resolved := query.referenceBase?_of_none read owner
      rw [isDeferred] at resolved
      rw [bindsTargetOnly_iff_of_referenceBase? many resolved rfl]
      simp [Expr.occurrences, Expr.nodes_eq_walk, Expr.walk, Expr.reference?]
  | some other =>
      have resolved := query.referenceBase?_of_some read owner
      rw [bindsTargetOnly_iff_of_referenceBase? many resolved rfl]
      have onlyOther (model : String) (operation : Operation) :
          ⟨operationUnitName model operation, .operation⟩ ∈
              (Expr.reference (bulkQueryReference other)).occurrences ↔
            Text.capitalizeFirst model = Text.capitalizeFirst other ∧ operation = .findMany := by
        simp [Expr.occurrences, Expr.nodes_eq_walk, Expr.walk, Expr.reference?, bulkQueryReference,
          operationUnitName_inj]
      simp only [onlyOther, Option.some.injEq, forall_eq']
      constructor
      · intro reached
        exact (reached other .findMany ⟨rfl, rfl⟩).2
      · rintro isTarget model operation ⟨sameModel, isBulkQuery⟩
        exact ⟨isBulkQuery, sameModel.trans isTarget⟩

/-- The projection of a relation to many refers to another operation than the bulk query of its
target exactly when the name of the target contains the mark behind its front, unless an enumeration
takes the name of the argument type. -/
theorem bindsTargetOnly_iff
    {context : Context}
    {relation : ModelField}
    (many : relation.isList = true)
    (owner : String) :
    BindsTargetOnly context owner relation ↔
      context.isEnum (relation.typeName ++ bulkQueryMark) = true ∨
        ¬ ContainsMark relation.typeName ∨ BeginsWithMark relation.typeName := by
  cases named : context.isEnum (relation.typeName ++ bulkQueryMark) with
  | true =>
      have resolved :
          referenceBase? context owner (hostAlternative (relation.typeName ++ bulkQueryMark)) =
            some (.reference ⟨relation.typeName ++ bulkQueryMark, .enumeration⟩) := by
        simp [referenceBase?, referenceKind?, hostAlternative, named]
      rw [bindsTargetOnly_iff_of_referenceBase? many resolved rfl]
      simp [Expr.occurrences, Expr.nodes_eq_walk, Expr.walk, Expr.reference?]
  | false =>
      rw [bindsTargetOnly_iff_read many named, forall_read_iff]
      simp

/-- In every context, a type that is called like the bulk query of a model and is no enumeration
refers to the unit of that bulk query exactly when the name of the model does not contain the mark.
The unit of an operation is that of a bulk query only for the bulk queries of models that differ at
most in the case of the first character.  So the projection of a relation to many refers to no other
operation than the bulk query of its target, unless the name of the target contains the mark behind
its front and no enumeration takes the name of the argument type. -/
theorem bulkQueries_reach_target_iff
    (context : Context) :
    (∀ (owner : String) (field : InputField) (alternative : TypeAlternative) (target : String),
        target ≠ "" → IsBulkQueryOf context target alternative →
          (referenceAlternative? context owner field alternative =
              some (wrapped field alternative
                (.reference ⟨operationUnitName target .findMany, .operation⟩)) ↔
            ¬ ContainsMark target)) ∧
      (∀ (target model : String) (operation : Operation),
        operationUnitName model operation = operationUnitName target .findMany ↔
          operation = .findMany ∧
            Text.capitalizeFirst model = Text.capitalizeFirst target) ∧
      ∀ (source : Model), ∀ relation ∈ source.relations, relation.isList = true →
        relationField relation ∈ (includeComposite context source).fields ∧
          relationField relation ∈ (selectComposite context source).fields ∧
          ∀ owner : String,
            BindsTargetOnly context owner relation ↔
              context.isEnum (relation.typeName ++ bulkQueryMark) = true ∨
                ¬ ContainsMark relation.typeName ∨ BeginsWithMark relation.typeName := by
  refine ⟨?_, ?_, ?_⟩
  · intro owner field alternative target filled query
    exact query.referenceAlternative?_eq_iff filled owner field
  · intro target model operation
    rw [operationUnitName_inj, and_comm]
  · intro source relation related many
    refine ⟨?_, ?_, bindsTargetOnly_iff many⟩
    · exact List.mem_append_left _ (List.mem_map_of_mem related)
    · obtain ⟨listed, relates⟩ := List.mem_filter.mp related
      refine List.mem_append_left _ (List.mem_map.mpr ⟨relation, listed, ?_⟩)
      rw [selectField, if_pos relates]

/-- A relation to many. -/
def postsOf : ModelField :=
  ⟨"posts", .object, "Post", true, true⟩

theorem bulkQueries_reach_target_iff_posts :
    "Post" ≠ "" ∧
      IsBulkQueryOf .default "Post" (hostAlternative "PostFindManyArgs") ∧
      (referenceAlternative? .default "UserInclude" (relationField postsOf)
            (hostAlternative "PostFindManyArgs") =
          some (wrapped (relationField postsOf) (hostAlternative "PostFindManyArgs")
            (.reference ⟨operationUnitName "Post" .findMany, .operation⟩)) ↔
        ¬ ContainsMark "Post") ∧
      postsOf ∈ (Model.mk "User" [postsOf]).relations ∧
      postsOf.isList = true ∧
      (BindsTargetOnly .default "UserInclude" postsOf ↔
        Context.default.isEnum "PostFindManyArgs" = true ∨
          ¬ ContainsMark "Post" ∨ BeginsWithMark "Post") := by
  have query : IsBulkQueryOf .default "Post" (hostAlternative "PostFindManyArgs") :=
    ⟨rfl, rfl, rfl⟩
  have related : postsOf ∈ (Model.mk "User" [postsOf]).relations := by
    decide
  obtain ⟨reached, -, bound⟩ := bulkQueries_reach_target_iff .default
  exact ⟨by decide, query, reached _ _ _ _ (by decide) query, related, rfl,
    (bound _ _ related rfl).2.2 _⟩

/-- Two models, of which one is called like the bulk query of the other one, and a relation to the
former. -/
def repeatedMark : Document where
  provider := .postgresql
  previewFeatures := []
  models :=
    [⟨"A", []⟩, ⟨"AFindManyArgs", []⟩,
      ⟨"B", [⟨"items", .object, "AFindManyArgs", true, true⟩]⟩]
  enums := []
  composites := []
  mappings := [⟨"A", [.findMany], []⟩]
  aggregateSupport := none

/-- The settings of a run that includes relations. -/
def withInclusion : Settings :=
  { Settings.default with emitsInclude := true }

/-- Without an error, the projection of the relation refers to the unit of a bulk query that belongs
to another model than the target. -/
theorem not_bindsTargetOnly_repeatedMark :
    (Check.full withInclusion repeatedMark).hasErrors = false ∧
      ∃ source ∈ repeatedMark.models, ∃ relation ∈ source.relations,
        relation.isList = true ∧
          ¬ BindsTargetOnly (.build withInclusion repeatedMark) (includeName source.name) relation ∧
          ∃ unit ∈ plannedUnits (.build withInclusion repeatedMark) repeatedMark,
            unit.asReference? = some ⟨operationUnitName "A" .findMany, .operation⟩ ∧
              Text.capitalizeFirst "A" ≠ Text.capitalizeFirst relation.typeName ∧
              ∃ validator,
                fieldOf? (.build withInclusion repeatedMark) (includeName source.name)
                    (relationField relation) =
                  some (relation.name, validator) ∧
                ⟨operationUnitName "A" .findMany, .operation⟩ ∈ validator.occurrences := by
  have misread :
      ¬ BindsTargetOnly (.build withInclusion repeatedMark) "BInclude"
        ⟨"items", .object, "AFindManyArgs", true, true⟩ := by
    rw [bindsTargetOnly_iff rfl]
    decide +kernel
  have planned :
      ∃ unit ∈ plannedUnits (.build withInclusion repeatedMark) repeatedMark,
        unit.asReference? = some ⟨operationUnitName "A" .findMany, .operation⟩ := by
    decide +kernel
  obtain ⟨unit, member, answers⟩ := planned
  refine ⟨by decide +kernel, ⟨"B", [⟨"items", .object, "AFindManyArgs", true, true⟩]⟩,
    by decide, ⟨"items", .object, "AFindManyArgs", true, true⟩, by decide, rfl, misread, unit,
    member, answers, by decide +kernel, _, rfl, ?_⟩
  decide +kernel

end ZodSchemas.Assembly
