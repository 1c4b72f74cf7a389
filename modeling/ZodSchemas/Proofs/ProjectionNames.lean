import Mathlib.Data.List.Pairwise
import ZodSchemas.Proofs.ProjectionClosure

namespace ZodSchemas.Assembly

/-!
# Names of projection composites

A projection composite has the name of its model with one of five endings.  Some
of these endings end in others, so the composites that count the relations of one
model share their names with the projections of another model if that is named
like the type of the counts.  In no other way two models come to share a name.
-/

open Metadata

/-- What stands behind the name of a model in the name of the type of its counts. -/
def countMark : String := "CountOutputType"

/-- Two models of which the second is named like the type that counts the relations of the first. -/
structure IsNamedAfterCounts (counted namesake : Model) : Prop where
  related : counted.hasManyRelation = true
  name : namesake.name = counted.name ++ countMark

/-! ## Endings of names -/

/-- The endings that the names of the projections of a model have, in their order. -/
def emittedEndings (context : Context) (model : Model) : List String :=
  (if context.emitsInclude && model.hasRelation then ["Include"] else [])
    ++ (if context.emitsSelect then ["Select"] else [])
    ++ ["DefaultArgs"]
    ++ (if context.emitsSelect && model.hasManyRelation then
          ["CountOutputTypeSelect", "CountOutputTypeDefaultArgs"]
        else
          [])

/-- All endings of names. -/
def nameEndings : List String :=
  ["Include", "Select", "DefaultArgs", "CountOutputTypeSelect", "CountOutputTypeDefaultArgs"]

theorem names_modelProjections
    (context : Context)
    (model : Model) :
    (modelProjections context model).map (·.name) =
      (emittedEndings context model).map (model.name ++ ·) := by
  simp only [modelProjections, emittedEndings, List.map_append, apply_ite (List.map _)]
  rfl

theorem emittedEndings_sublist
    (context : Context)
    (model : Model) :
    (emittedEndings context model).Sublist nameEndings := by
  unfold emittedEndings
  split <;> split <;> split <;> decide

/-- The endings of counts are emitted with selections, for models with a relation to many. -/
theorem emits_of_mem_emittedEndings
    {context : Context}
    {model : Model}
    {ending : String}
    (emitted : countMark ++ ending ∈ emittedEndings context model) :
    context.emitsSelect = true ∧ model.hasManyRelation = true := by
  by_cases counts : (context.emitsSelect && model.hasManyRelation) = true
  · exact Bool.and_eq_true_iff.mp counts
  · rw [emittedEndings, if_neg counts, List.append_nil] at emitted
    have plain : countMark ++ ending ∈ ["Include", "Select", "DefaultArgs"] := by
      refine List.Sublist.subset ?_ emitted
      split <;> split <;> decide
    have noneCounts :
        ∀ other ∈ ["Include", "Select", "DefaultArgs"], ¬ countMark.toList <+: other.toList := by
      decide
    exact absurd ⟨ending.toList, (String.toList_append ..).symm⟩ (noneCounts _ plain)

/-- Names with different endings are the same only where one model is named like the type of the
counts of the other one. -/
theorem cases_of_shared_name
    {first second ending other : String}
    (isEnding : ending ∈ nameEndings)
    (isOther : other ∈ nameEndings)
    (same : first ++ ending = second ++ other) :
    first = second ∨
      (second = first ++ countMark ∧ ending = countMark ++ other) ∨
      (first = second ++ countMark ∧ other = countMark ++ ending) := by
  have longer :
      ∀ one ∈ nameEndings, ∀ two ∈ nameEndings, two.toList <:+ one.toList →
        one = two ∨ one = countMark ++ two := by
    decide
  have comparable := Text.endings_comparable (Text.suffix_append first ending)
    (same ▸ Text.suffix_append second other)
  rcases comparable with shorter | longerEnding
  · rcases longer other isOther ending isEnding shorter with rfl | rfl
    · exact .inl ((String.append_left_inj _).mp same)
    · rw [← String.append_assoc, String.append_left_inj] at same
      exact .inr (.inr ⟨same, rfl⟩)
  · rcases longer ending isEnding other isOther longerEnding with rfl | rfl
    · exact .inl ((String.append_left_inj _).mp same)
    · rw [← String.append_assoc, String.append_left_inj] at same
      exact .inr (.inl ⟨same.symm, rfl⟩)

/-! ## Models that share names -/

/-- No projection of one model has the name of a projection of the other one. -/
def SharesNoName (context : Context) (first second : Model) : Prop :=
  ∀ ending ∈ emittedEndings context first, ∀ other ∈ emittedEndings context second,
    first.name ++ ending ≠ second.name ++ other

instance (context : Context) : Std.Symm (SharesNoName context) where
  symm _ _ apart other isOther ending isEnding same := apart ending isEnding other isOther same.symm

/-- Models of different names share one exactly if selections are emitted and one is named after
the counts of the other one. -/
theorem sharesNoName_iff
    {context : Context}
    {first second : Model}
    (apart : first.name ≠ second.name) :
    SharesNoName context first second ↔
      (context.emitsSelect = true →
        ¬ IsNamedAfterCounts first second ∧ ¬ IsNamedAfterCounts second first) := by
  constructor
  · intro sharesNone selects
    have emits {counted namesake : Model} (isNamed : IsNamedAfterCounts counted namesake) :
        "CountOutputTypeSelect" ∈ emittedEndings context counted ∧
          "Select" ∈ emittedEndings context namesake ∧
            counted.name ++ "CountOutputTypeSelect" = namesake.name ++ "Select" := by
      refine ⟨by simp [emittedEndings, selects, isNamed.related], by simp [emittedEndings, selects],
        ?_⟩
      rw [isNamed.name, String.append_assoc]
      rfl
    refine ⟨fun isNamed => ?_, fun isNamed => ?_⟩
    · obtain ⟨inFirst, inSecond, same⟩ := emits isNamed
      exact sharesNone _ inFirst _ inSecond same
    · obtain ⟨inSecond, inFirst, same⟩ := emits isNamed
      exact sharesNone _ inFirst _ inSecond same.symm
  · intro noneNamed ending isEnding other isOther same
    rcases cases_of_shared_name ((emittedEndings_sublist ..).subset isEnding)
      ((emittedEndings_sublist ..).subset isOther) same with
      sameModel | ⟨isNamed, rfl⟩ | ⟨isNamed, rfl⟩
    · exact apart sameModel
    · obtain ⟨selects, related⟩ := emits_of_mem_emittedEndings isEnding
      exact (noneNamed selects).1 ⟨related, isNamed⟩
    · obtain ⟨selects, related⟩ := emits_of_mem_emittedEndings isOther
      exact (noneNamed selects).2 ⟨related, isNamed⟩

/-- The projections of models of different names have different names exactly if no two of the
models share a name. -/
theorem nodup_names_iff
    {context : Context}
    {models : List Model}
    (apart : (models.map (·.name)).Nodup) :
    ((models.flatMap (modelProjections context)).map (·.name)).Nodup ↔
      ∀ first ∈ models, ∀ second ∈ models, first ≠ second → SharesNoName context first second := by
  have eachApart (model : Model) : ((modelProjections context model).map (·.name)).Nodup := by
    rw [names_modelProjections]
    exact ((emittedEndings_sublist context model).nodup (by decide)).map
      fun _ _ same => (String.append_right_inj _).mp same
  have pairApart {first second : Model} :
      (∀ name ∈ (modelProjections context first).map (·.name),
          ∀ other ∈ (modelProjections context second).map (·.name), name ≠ other) ↔
        SharesNoName context first second := by
    simp only [names_modelProjections, List.forall_mem_map]
    rfl
  rw [List.map_flatMap, List.Nodup, List.pairwise_flatMap]
  simp only [pairApart]
  constructor
  · rintro ⟨-, pairwise⟩ first isFirst second isSecond different
    exact pairwise.forall isFirst isSecond different
  · intro sharesNone
    exact ⟨fun model _ => eachApart model, (apart.of_map _).pairwise_of_forall_ne sharesNone⟩

/-! ## Composites with names of their own -/

/-- Derived composites have names of their own, so that each of them is kept unless a declared one
has its name. -/
structure HaveOwnNames (derived : List Composite) : Prop where
  apart : (derived.map (·.name)).Nodup
  yieldToDeclared : ∀ declared,
    mergeComposites declared derived =
      declared ++ derived.filter fun composite => !declared.any (·.name == composite.name)

theorem haveOwnNames_iff_nodup
    {derived : List Composite} :
    HaveOwnNames derived ↔ (derived.map (·.name)).Nodup :=
  ⟨HaveOwnNames.apart, fun apart => ⟨apart, mergeComposites_eq_append_filter apart⟩⟩

/-- Models of different names have projections with names of their own, unless selections are
emitted and one model is named after the counts of another one. -/
theorem projections_haveOwnNames_iff
    (context : Context)
    {models : List Model}
    (apart : (models.map (·.name)).Nodup) :
    HaveOwnNames (projections context models) ↔
      (context.emitsSelect = true →
        ∀ counted ∈ models, ∀ namesake ∈ models, ¬ IsNamedAfterCounts counted namesake) := by
  have namesApart {first second : Model} (isFirst : first ∈ models) (isSecond : second ∈ models)
      (different : first ≠ second) : first.name ≠ second.name := fun same =>
    different (List.inj_on_of_nodup_map apart isFirst isSecond same)
  have notItself (model : Model) : ¬ IsNamedAfterCounts model model := fun isNamed => by
    have longer := congrArg String.length isNamed.name
    rw [String.length_append] at longer
    exact absurd longer (by simp [countMark])
  rw [haveOwnNames_iff_nodup]
  unfold projections
  split
  · rw [nodup_names_iff apart]
    constructor
    · intro sharesNone selects counted isCounted namesake isNamesake isNamed
      have different : counted ≠ namesake := fun same => notItself counted (same ▸ isNamed)
      exact ((sharesNoName_iff (namesApart isCounted isNamesake different)).mp
        (sharesNone counted isCounted namesake isNamesake different) selects).1 isNamed
    · intro noneNamed first isFirst second isSecond different
      exact (sharesNoName_iff (namesApart isFirst isSecond different)).mpr fun selects =>
        ⟨noneNamed selects first isFirst second isSecond,
          noneNamed selects second isSecond first isFirst⟩
  · rename_i silent
    exact ⟨fun _ selects => absurd (by rw [selects, Bool.true_or]) silent, fun _ => List.nodup_nil⟩

/-- A user with posts beside a model that is named like a count, though not like that of the
posts. -/
theorem projections_haveOwnNames_iff_userPosts :
    let models : List Model := [⟨"User", [⟨"posts", .object, "Post", true, true⟩]⟩,
      ⟨"PostCountOutputType", []⟩, ⟨"UserCountOutput", []⟩, ⟨"Post", []⟩]
    (models.map (·.name)).Nodup ∧
      HaveOwnNames (projections projectingContext models) ∧
      (HaveOwnNames (projections projectingContext models) ↔
        (projectingContext.emitsSelect = true →
          ∀ counted ∈ models, ∀ namesake ∈ models, ¬ IsNamedAfterCounts counted namesake)) := by
  intro models
  have apart : (models.map (·.name)).Nodup := by
    decide
  exact ⟨apart, haveOwnNames_iff_nodup.mpr (by decide +kernel),
    projections_haveOwnNames_iff projectingContext apart⟩

/-- The selection of a model that is named after the counts of another one is left out in favour of
the selection of these counts, though neither is declared. -/
theorem not_haveOwnNames_userCountOutputType :
    let namesake : Model := ⟨"UserCountOutputType", [⟨"id", .scalar, "Int", false, true⟩]⟩
    let models : List Model := [⟨"User", [⟨"posts", .object, "Post", true, true⟩]⟩, namesake]
    (models.map (·.name)).Nodup ∧
      (∀ model ∈ models, Text.isIdentifier model.name = true) ∧
      ¬ HaveOwnNames (projections projectingContext models) ∧
      selectComposite projectingContext namesake ∉
        mergeComposites [] (projections projectingContext models) := by
  intro namesake models
  refine ⟨by decide, by decide, fun ownNames => ?_, by decide +kernel⟩
  have notApart : ¬ ((projections projectingContext models).map (·.name)).Nodup := by
    decide +kernel
  exact notApart ownNames.apart

end ZodSchemas.Assembly
