import Mathlib.Data.List.Forall2
import ZodSchemas.Assembly.Composite

namespace ZodSchemas

/-!
# The form of a composite's field

Each usable alternative of a field contributes one member, a base in a list
wrapper where the alternative is a list.  The core of the field is its only
member or the union of its members in the order of the metadata.  Around the
core stand at most an optional wrapper and a nullable one, in this order and
decided by the flags of the field alone; the optional wrappers that the members
receive on the way are taken off again when they are joined.
-/

namespace Expr

theorem mem_walkAll
    {node : Expr}
    {members : List Expr} :
    node ∈ walkAll members ↔ ∃ member ∈ members, node ∈ member.walk := by
  induction members with
  | nil =>
      simp [walkAll]
  | cons first rest inductionHypothesis =>
      simp [walkAll, inductionHypothesis]

/-- Whether a node lets its value be absent or null. -/
def isLenient : Expr → Bool
  | .optional _ | .nullable _ => true
  | _ => false

/-- Whether an optional or nullable wrapper occurs. -/
def hasLenient (expr : Expr) : Bool :=
  expr.walk.any isLenient

theorem hasLenient_array
    (inner : Expr) :
    (Expr.array inner).hasLenient = inner.hasLenient := by
  simp [hasLenient, walk, isLenient]

theorem hasLenient_union
    (members : List Expr) :
    (Expr.union members).hasLenient = members.any hasLenient := by
  rw [Bool.eq_iff_iff]
  simp only [hasLenient, walk, List.any_cons, isLenient, Bool.false_or, List.any_eq_true,
    mem_walkAll]
  constructor
  · rintro ⟨node, ⟨member, isMember, inside⟩, lenient⟩
    exact ⟨member, isMember, node, inside, lenient⟩
  · rintro ⟨member, isMember, node, inside, lenient⟩
    exact ⟨node, ⟨member, isMember, inside⟩, lenient⟩

/-- Where no optional wrapper occurs there is none to take off. -/
theorem stripOptional_of_not_hasLenient
    {expr : Expr}
    (strict : expr.hasLenient = false) :
    expr.stripOptional = expr := by
  cases expr with
  | optional inner =>
      simp [hasLenient, walk, isLenient] at strict
  | primitive | json | reference | deferred | array | nullable | union | object | enumeration
  | foreign =>
      rfl

end Expr

namespace Assembly

open Metadata

/-- Whether an alternative is a supported scalar, an enumeration, a bulk query or a composite. -/
def isUsable (alternative : TypeAlternative) : Bool :=
  match alternative.location with
  | .scalar =>
      alternative.typeName == jsonType
        || (primitiveCodes.map (·.1)).contains alternative.typeName
  | .enumTypes | .inputObjectTypes => true
  | .fieldRefTypes => false

/-- What the type of an alternative becomes, before its list wrapper. -/
inductive BaseOf (context : Context) (owner : String) (alternative : TypeAlternative) :
    Expr → Prop where
  | json
      (place : alternative.location = .scalar)
      (named : alternative.typeName = jsonType) :
      BaseOf context owner alternative .json
  | primitive
      {code : String}
      (place : alternative.location = .scalar)
      (coded : (alternative.typeName, code) ∈ primitiveCodes) :
      BaseOf context owner alternative (.primitive code)
  | enumeration
      (place :
        alternative.location = .enumTypes ∨
          alternative.location = .inputObjectTypes ∧ context.isEnum alternative.typeName = true) :
      BaseOf context owner alternative (.reference ⟨alternative.typeName, .enumeration⟩)
  | bulkQuery
      {model : String}
      (place : alternative.location = .inputObjectTypes)
      (noEnum : context.isEnum alternative.typeName = false)
      (ofModel : bulkQueryModel? alternative.typeName = some model) :
      BaseOf context owner alternative (.reference ⟨operationUnitName model .findMany, .operation⟩)
  | composite
      (place : alternative.location = .inputObjectTypes)
      (noEnum : context.isEnum alternative.typeName = false)
      (noQuery : bulkQueryModel? alternative.typeName = none)
      (foreignToOwner : alternative.typeName ≠ owner ∧ alternative.origin ≠ some hostOrigin) :
      BaseOf context owner alternative
        (.reference ⟨compositeUnitName context alternative.typeName, .object⟩)
  | deferred
      (place : alternative.location = .inputObjectTypes)
      (noEnum : context.isEnum alternative.typeName = false)
      (noQuery : bulkQueryModel? alternative.typeName = none)
      (cyclic : alternative.typeName = owner ∨ alternative.origin = some hostOrigin) :
      BaseOf context owner alternative
        (.deferred (.reference ⟨compositeUnitName context alternative.typeName, .object⟩) none)

/-- The contribution of a usable alternative to its field. -/
inductive MemberOf (context : Context) (owner : String) (alternative : TypeAlternative) :
    Expr → Prop where
  | single
      {base : Expr}
      (notList : alternative.isList = false)
      (isBase : BaseOf context owner alternative base) :
      MemberOf context owner alternative base
  | list
      {base : Expr}
      (isList : alternative.isList = true)
      (isBase : BaseOf context owner alternative base) :
      MemberOf context owner alternative (.array base)

/-- The only member of a field, or the union of its members in their order. -/
inductive CoreOf (context : Context) (owner : String) : List TypeAlternative → Expr → Prop where
  | only
      {alternative : TypeAlternative}
      {member : Expr}
      (isMember : MemberOf context owner alternative member) :
      CoreOf context owner [alternative] member
  | union
      {alternatives : List TypeAlternative}
      {members : List Expr}
      (several : 2 ≤ alternatives.length)
      (areMembers : List.Forall₂ (MemberOf context owner) alternatives members) :
      CoreOf context owner alternatives (.union members)

/-- A validator in the optional wrapper of a field that may be absent. -/
def optionalFor (field : InputField) (validator : Expr) : Expr :=
  if field.isRequired then validator else .optional validator

/-- A validator in the nullable wrapper of a field that accepts null. -/
def nullableFor (field : InputField) (validator : Expr) : Expr :=
  if field.isNullable then .nullable validator else validator

theorem BaseOf.not_hasLenient
    {context : Context}
    {owner : String}
    {alternative : TypeAlternative}
    {base : Expr}
    (isBase : BaseOf context owner alternative base) :
    base.hasLenient = false := by
  cases isBase <;> rfl

theorem MemberOf.not_hasLenient
    {context : Context}
    {owner : String}
    {alternative : TypeAlternative}
    {member : Expr}
    (isMember : MemberOf context owner alternative member) :
    member.hasLenient = false := by
  cases isMember with
  | single notList isBase =>
      exact isBase.not_hasLenient
  | list isList isBase =>
      rw [Expr.hasLenient_array]
      exact isBase.not_hasLenient

theorem not_hasLenient_of_members
    {context : Context}
    {owner : String}
    {alternatives : List TypeAlternative}
    {members : List Expr}
    (areMembers : List.Forall₂ (MemberOf context owner) alternatives members) :
    ∀ member ∈ members, member.hasLenient = false := by
  induction areMembers with
  | nil =>
      exact List.forall_mem_nil _
  | cons isMember areMembers inductionHypothesis =>
      exact List.forall_mem_cons.mpr ⟨isMember.not_hasLenient, inductionHypothesis⟩

theorem CoreOf.not_hasLenient
    {context : Context}
    {owner : String}
    {alternatives : List TypeAlternative}
    {core : Expr}
    (isCore : CoreOf context owner alternatives core) :
    core.hasLenient = false := by
  cases isCore with
  | only isMember =>
      exact isMember.not_hasLenient
  | union several areMembers =>
      simpa [Expr.hasLenient_union] using not_hasLenient_of_members areMembers

/-- The scalars with a validator are the usable ones, and their validators are their bases. -/
theorem scalar?_cases
    (context : Context)
    (owner : String)
    {alternative : TypeAlternative}
    (place : alternative.location = .scalar) :
    isUsable alternative = false ∧ scalar? alternative.typeName = none ∨
      isUsable alternative = true ∧
        ∃ base, BaseOf context owner alternative base ∧
          scalar? alternative.typeName = some base := by
  by_cases named : alternative.typeName = jsonType
  · exact .inr ⟨by simp [isUsable, place, named], .json, .json place named,
      by simp [scalar?, named]⟩
  · cases found : primitiveCodes.lookup alternative.typeName with
    | none =>
        have unlisted : alternative.typeName ∉ primitiveCodes.map (·.1) := by
          rw [List.lookup_eq_none_iff] at found
          intro listed
          obtain ⟨entry, member, same⟩ := List.mem_map.mp listed
          simpa [same] using found entry member
        exact .inl ⟨by simpa [isUsable, place, named] using unlisted,
          by simp [scalar?, named, found]⟩
    | some code =>
        have coded : (alternative.typeName, code) ∈ primitiveCodes := by
          obtain ⟨earlier, later, shape, -⟩ := List.lookup_eq_some_iff.mp found
          simp [shape]
        have listed : alternative.typeName ∈ primitiveCodes.map (·.1) :=
          List.mem_map_of_mem coded
        exact .inr ⟨by simpa [isUsable, place, named] using listed, .primitive code,
          .primitive place coded, by simp [scalar?, named, found]⟩

/-- Every other alternative has a validator unless it names a field. -/
theorem referenceBase?_cases
    (context : Context)
    (owner : String)
    {alternative : TypeAlternative}
    (place : alternative.location ≠ .scalar) :
    isUsable alternative = false ∧ referenceBase? context owner alternative = none ∨
      isUsable alternative = true ∧
        ∃ base, BaseOf context owner alternative base ∧
          referenceBase? context owner alternative = some base := by
  cases location : alternative.location with
  | scalar =>
      contradiction
  | fieldRefTypes =>
      exact .inl ⟨by simp [isUsable, location], by
        simp [referenceBase?, referenceKind?, location]⟩
  | enumTypes =>
      exact .inr ⟨by simp [isUsable, location], _, .enumeration (.inl location), by
        simp [referenceBase?, referenceKind?, location]⟩
  | inputObjectTypes =>
      refine .inr ⟨by simp [isUsable, location], ?_⟩
      cases named : context.isEnum alternative.typeName with
      | true =>
          exact ⟨_, .enumeration (.inr ⟨location, named⟩), by
            simp [referenceBase?, referenceKind?, location, named]⟩
      | false =>
          cases query : bulkQueryModel? alternative.typeName with
          | some model =>
              exact ⟨_, .bulkQuery location named query, by
                simp [referenceBase?, referenceKind?, location, named, query]⟩
          | none =>
              by_cases cyclic :
                  alternative.typeName = owner ∨ alternative.origin = some hostOrigin
              · exact ⟨_, .deferred location named query cyclic, by
                  simp [referenceBase?, referenceKind?, compositeReference, isDeferred,
                    location, named, query, cyclic]⟩
              · exact ⟨_, .composite location named query (not_or.mp cyclic), by
                  simp [referenceBase?, referenceKind?, compositeReference, isDeferred,
                    location, named, query, cyclic]⟩

/-- The validator of an alternative is its member in the optional wrapper of the field. -/
theorem wrapped_of_base
    {context : Context}
    {owner : String}
    {alternative : TypeAlternative}
    {base : Expr}
    (isBase : BaseOf context owner alternative base)
    (field : InputField) :
    ∃ member, MemberOf context owner alternative member ∧
      wrapped field alternative base = optionalFor field member := by
  cases listFlag : alternative.isList with
  | false =>
      exact ⟨base, .single listFlag isBase, by simp [wrapped, optionalFor, listFlag]⟩
  | true =>
      exact ⟨.array base, .list listFlag isBase, by simp [wrapped, optionalFor, listFlag]⟩

/-- The usable alternatives are those with a validator. -/
theorem alternative?_cases
    (context : Context)
    (owner : String)
    (field : InputField)
    (alternative : TypeAlternative) :
    isUsable alternative = false ∧ alternative? context owner field alternative = none ∨
      isUsable alternative = true ∧
        ∃ member, MemberOf context owner alternative member ∧
          alternative? context owner field alternative = some (optionalFor field member) := by
  have wrappedCases (base? : Option Expr)
      (isValidator :
        alternative? context owner field alternative = base?.map (wrapped field alternative))
      (cases :
        isUsable alternative = false ∧ base? = none ∨
          isUsable alternative = true ∧
            ∃ base, BaseOf context owner alternative base ∧ base? = some base) :
      isUsable alternative = false ∧ alternative? context owner field alternative = none ∨
        isUsable alternative = true ∧
          ∃ member, MemberOf context owner alternative member ∧
            alternative? context owner field alternative = some (optionalFor field member) := by
    rcases cases with ⟨unusable, rfl⟩ | ⟨usable, base, isBase, rfl⟩
    · exact .inl ⟨unusable, isValidator⟩
    · obtain ⟨member, isMember, same⟩ := wrapped_of_base isBase field
      exact .inr ⟨usable, member, isMember, by rw [isValidator, Option.map_some, same]⟩
  by_cases place : alternative.location = .scalar
  · refine wrappedCases (scalar? alternative.typeName) ?_ (scalar?_cases context owner place)
    simp [alternative?, TypeAlternative.isScalar, place, scalarAlternative?]
  · refine wrappedCases (referenceBase? context owner alternative) ?_
      (referenceBase?_cases context owner place)
    simp [alternative?, TypeAlternative.isScalar, place, referenceAlternative?]

/-- The validators of a field's alternatives are the members of the usable ones, in their order
and each in the optional wrapper of the field. -/
theorem exists_members
    (context : Context)
    (owner : String)
    (field : InputField)
    (alternatives : List TypeAlternative) :
    ∃ members,
      List.Forall₂ (MemberOf context owner) (alternatives.filter isUsable) members ∧
        alternatives.filterMap (alternative? context owner field) =
          members.map (optionalFor field) := by
  induction alternatives with
  | nil =>
      exact ⟨[], .nil, rfl⟩
  | cons first rest inductionHypothesis =>
      obtain ⟨members, areMembers, sameRest⟩ := inductionHypothesis
      rcases alternative?_cases context owner field first with
        ⟨unusable, noValidator⟩ | ⟨usable, member, isMember, isValidator⟩
      · exact ⟨members, by simpa [unusable] using areMembers, by
          rw [List.filterMap_cons_none noValidator, sameRest]⟩
      · exact ⟨member :: members, by simpa [usable] using areMembers.cons isMember, by
          rw [List.filterMap_cons_some isValidator, sameRest, List.map_cons]⟩

/-- Joining takes the optional wrappers of several members off and puts one around their union. -/
theorem unionOf_map_optionalFor
    (field : InputField)
    {members : List Expr}
    (strict : ∀ member ∈ members, member.hasLenient = false) :
    unionOf field (members.map (optionalFor field)) = optionalFor field (.union members) := by
  have stripped :
      (members.map (optionalFor field)).map Expr.stripOptional = members := by
    rw [List.map_map, List.map_congr_left (g := id), List.map_id]
    intro member isMember
    have bare := Expr.stripOptional_of_not_hasLenient (strict member isMember)
    cases required : field.isRequired <;>
      simp [optionalFor, required, Expr.stripOptional, bare]
  rw [unionOf, stripped]
  rfl

/-- The members of a field in the optional wrapper are joined to its core in both wrappers. -/
theorem combined?_of_members
    {context : Context}
    {owner : String}
    (field : InputField)
    {alternatives : List TypeAlternative}
    {members : List Expr}
    (areMembers : List.Forall₂ (MemberOf context owner) alternatives members) :
    alternatives = [] ∧ combined? field (members.map (optionalFor field)) = none ∨
      ∃ core, CoreOf context owner alternatives core ∧
        combined? field (members.map (optionalFor field)) =
          some (nullableFor field (optionalFor field core)) := by
  have nullable (joined : Expr) :
      (if field.isNullable then (some joined).map Expr.nullable else some joined) =
        some (nullableFor field joined) := by
    cases accepts : field.isNullable <;> simp [nullableFor, accepts]
  cases areMembers with
  | nil =>
      refine .inl ⟨rfl, ?_⟩
      cases accepts : field.isNullable <;> simp [combined?, accepts]
  | cons isFirst areOthers =>
      rename_i first firstMember others otherMembers
      refine .inr ?_
      cases areOthers with
      | nil =>
          exact ⟨firstMember, .only isFirst, nullable _⟩
      | cons isSecond areOthers =>
          rename_i second secondMember others otherMembers
          have areMembers := (areOthers.cons isSecond).cons isFirst
          refine ⟨.union (firstMember :: secondMember :: otherMembers),
            .union (by simp) areMembers, ?_⟩
          rw [← unionOf_map_optionalFor field (not_hasLenient_of_members areMembers)]
          exact nullable _

/-- The entry of a field from the core of its usable alternatives. -/
theorem fieldOf?_cases
    (context : Context)
    (owner : String)
    (field : InputField) :
    field.alternatives.filter isUsable = [] ∧ fieldOf? context owner field = none ∨
      ∃ core, CoreOf context owner (field.alternatives.filter isUsable) core ∧
        fieldOf? context owner field =
          some (field.name, nullableFor field (optionalFor field core)) := by
  obtain ⟨members, areMembers, validators⟩ := exists_members context owner field field.alternatives
  rw [fieldOf?, fieldExpr?, validators]
  rcases combined?_of_members field areMembers with ⟨unusable, nothing⟩ | ⟨core, isCore, joined⟩
  · exact .inl ⟨unusable, by rw [nothing, Option.map_none]⟩
  · exact .inr ⟨core, isCore, by rw [joined, Option.map_some]⟩

theorem fieldOf?_eq_none_iff
    {context : Context}
    {owner : String}
    {field : InputField} :
    fieldOf? context owner field = none ↔ field.alternatives.filter isUsable = [] := by
  rcases fieldOf?_cases context owner field with ⟨unusable, nothing⟩ | ⟨core, isCore, entry⟩
  · simp [unusable, nothing]
  · have usable : field.alternatives.filter isUsable ≠ [] := by
      intro empty
      rw [empty] at isCore
      cases isCore with
      | union several areMembers =>
          simp at several
    simp [usable, entry]

/-- The entries of a composite belong to its fields with a usable alternative, in their order. -/
theorem forall₂_compositeFields
    (context : Context)
    (owner : String)
    (fields : List InputField) :
    List.Forall₂ (fun field entry => fieldOf? context owner field = some entry)
      (fields.filter fun field => field.alternatives.any isUsable)
      (fields.filterMap (fieldOf? context owner)) := by
  induction fields with
  | nil =>
      exact .nil
  | cons first rest inductionHypothesis =>
      cases entry : fieldOf? context owner first with
      | none =>
          have unusable : first.alternatives.any isUsable = false := by
            simpa using fieldOf?_eq_none_iff.mp entry
          rw [List.filter_cons_of_neg (by simp [unusable]), List.filterMap_cons_none entry]
          exact inductionHypothesis
      | some validated =>
          have usable : first.alternatives.any isUsable = true := by
            by_contra unusable
            have nothing : fieldOf? context owner first = none :=
              fieldOf?_eq_none_iff.mpr (by simpa using unusable)
            rw [nothing] at entry
            contradiction
          rw [List.filter_cons_of_pos (by simpa using usable), List.filterMap_cons_some entry]
          exact .cons entry inductionHypothesis

/-- A field has an entry if and only if one of its alternatives is usable.  Its validator is then
the core of the usable alternatives, without an optional or nullable wrapper inside, in an optional
wrapper if the field may be absent and a nullable one around that if it accepts null.  A composite
has the entries of its fields that have one, in their order. -/
theorem fields_have_normal_form
    (context : Context) :
    (∀ (owner : String) (field : InputField),
      (fieldOf? context owner field = none ↔ field.alternatives.filter isUsable = []) ∧
        (field.alternatives.filter isUsable ≠ [] →
          ∃ core,
            CoreOf context owner (field.alternatives.filter isUsable) core ∧
              core.hasLenient = false ∧
              fieldOf? context owner field =
                some (field.name, nullableFor field (optionalFor field core)))) ∧
      ∀ composite : Composite,
        ∃ entries,
          (compositeUnit context composite).expression = some (.object entries true) ∧
            List.Forall₂
              (fun field entry => fieldOf? context composite.name field = some entry)
              (composite.fields.filter fun field => field.alternatives.any isUsable)
              entries := by
  refine ⟨fun owner field => ⟨fieldOf?_eq_none_iff, fun usable => ?_⟩, fun composite =>
    ⟨compositeFields context composite, rfl,
      forall₂_compositeFields context composite.name composite.fields⟩⟩
  rcases fieldOf?_cases context owner field with ⟨unusable, -⟩ | ⟨core, isCore, entry⟩
  · exact absurd unusable usable
  · exact ⟨core, isCore, isCore.not_hasLenient, entry⟩

/-- A field that may be absent or null, whose second alternative has no validator. -/
def mixedField : InputField where
  name := "parent"
  isRequired := false
  isNullable := true
  alternatives :=
    [⟨"Int", true, .scalar, none⟩, ⟨"Null", false, .scalar, none⟩,
      ⟨"Role", false, .enumTypes, none⟩,
      ⟨"NodeWhereInput", true, .inputObjectTypes, some hostOrigin⟩]

theorem fields_have_normal_form_mixedField :
    mixedField.alternatives.filter isUsable ≠ [] ∧
      ∃ core,
        CoreOf .default "NodeWhereInput" (mixedField.alternatives.filter isUsable) core ∧
          core.hasLenient = false ∧
          some ("parent", .nullable (.optional (.union
            [.array (.primitive "z.number().int()"), .reference ⟨"Role", .enumeration⟩,
              .array (.deferred (.reference ⟨"NodeWhereInput", .object⟩) none)]))) =
            some (mixedField.name, nullableFor mixedField (optionalFor mixedField core)) := by
  have usable : mixedField.alternatives.filter isUsable ≠ [] := by
    decide
  exact ⟨usable, ((fields_have_normal_form .default).1 "NodeWhereInput" mixedField).2 usable⟩

end Assembly

end ZodSchemas
