import Mathlib.Data.List.Perm.Basic
import ZodSchemas.Proofs.ContextFrames
import ZodSchemas.Proofs.Decoding
import ZodSchemas.Proofs.DerivedTables

namespace ZodSchemas.Assembly

/-!
# Rearranged documents

Two documents that list the same in another order compile to the same modules.
Only the index shows the order, by the order of its lines.  What keeps the order
from mattering elsewhere is that nothing hides anything: models, mappings,
composites and paths have names of their own, and raw operations are known ones.
-/

open Metadata

/-- The lists of one document are those of another one in another order. -/
structure Rearranged (first second : Document) : Prop where
  models : first.models.Perm second.models
  enums : first.enums.Perm second.enums
  composites : first.composites.Perm second.composites
  mappings : first.mappings.Perm second.mappings
  provider : second.provider = first.provider
  previewFeatures : second.previewFeatures = first.previewFeatures
  aggregateSupport : second.aggregateSupport = first.aggregateSupport

/-- In a document nothing takes the place of anything.  Enumerations have names of their own then
as well, because their paths tell them. -/
structure Unambiguous (settings : Settings) (document : Document) : Prop where
  modelsApart : (document.models.map (·.name)).Nodup
  mappedOnce : (document.mappings.map (·.model)).Nodup
  rawOperations : ListsKnownRawOperations document.mappings
  compositesApart :
    ((document.composites ++ projections (.build settings document) document.models).map
      (·.name)).Nodup
  pathsApart : ((plannedUnits (.build settings document) document).map SchemaUnit.path).Nodup

/-- Models have names of their own in every document that has been read. -/
theorem nodup_modelNames_of_read
    {value : Data.Value}
    {document : Document}
    (isRead : Decode.document value = .accepted document) :
    (document.models.map (·.name)).Nodup := by
  have accepted := (Decode.Decoded.check_eq_accepted_iff.mp isRead).2
  rw [← Decode.duplicates_eq_nil_iff, ← List.isEmpty_iff]
  by_contra repeats
  rw [Decode.refuseDuplicates, if_neg repeats] at accepted
  contradiction

/-- Composites with names of their own are all kept. -/
theorem mergeComposites_eq_append
    {declared derived : List Composite}
    (apart : ((declared ++ derived).map (·.name)).Nodup) :
    mergeComposites declared derived = declared ++ derived := by
  rw [List.map_append, List.nodup_append] at apart
  rw [mergeComposites_eq_append_filter apart.2.1, List.filter_eq_self.mpr]
  intro composite member
  rw [Bool.not_eq_true', List.any_eq_false]
  exact fun other listed same => apart.2.2 other.name (List.mem_map_of_mem listed) composite.name
    (List.mem_map_of_mem member) (beq_iff_eq.mp same)

theorem perm_projections
    (context : Context)
    {first second : List Model}
    (rearranged : first.Perm second) :
    (projections context first).Perm (projections context second) := by
  unfold projections
  split
  · exact rearranged.flatMap_right _
  · exact .refl _

/-- The lines of the index that a document compiles to. -/
def indexLines (settings : Settings) (document : Document) : List String :=
  exportLines (.build settings document) (plannedUnits (.build settings document) document)

/-- What two documents compile to is the same apart from the order of the lines in the index. -/
structure SameModules
    (settings : Settings)
    (first second : Document)
    (files others : List (String × String)) :
    Prop where
  paths : (others.map Prod.fst).Perm (files.map Prod.fst)
  modules : ∀ path, path ≠ "index.ts" → others.lookup path = files.lookup path
  indexes :
    files.lookup "index.ts" = some (joinLines (indexLines settings first)) ∧
      others.lookup "index.ts" = some (joinLines (indexLines settings second))
  lines : (indexLines settings second).Perm (indexLines settings first)

section Rearranging

variable {workingDirectory : String} {settings : Settings} {first second : Document}
  (rearranged : Rearranged first second)

include rearranged

theorem modelSupport_eq_of_rearranged
    (model : Model) :
    modelSupport second model = modelSupport first model := by
  have sameSupport (name : String) :
      supportIn second.support name = supportIn first.support name := by
    rw [Document.support, Document.support, rearranged.aggregateSupport]
    cases first.aggregateSupport with
    | some stated =>
        rfl
    | none =>
        refine AggregateSupport.eq_of_has_eq fun aggregate => ?_
        change (supportIn second.derivedSupport name).has aggregate =
          (supportIn first.derivedSupport name).has aggregate
        rw [has_supportIn_derivedSupport, has_supportIn_derivedSupport]
        exact rearranged.composites.symm.any_eq
  exact sameSupport model.name

variable (unambiguous : Unambiguous settings first)

include unambiguous

theorem alike_of_rearranged :
    (Context.build settings first).Alike (.build settings second) := by
  constructor
  · intro name
    rw [Bool.eq_iff_iff]
    simp only [Context.isEnum, Context.build, List.contains_iff_mem, mem_distinct]
    exact (rearranged.enums.map _).symm.mem_iff
  · intro name
    have sameTable :=
      lookup_rawOperationTable_of_perm rearranged.mappings unambiguous.rawOperations name
    simp only [Context.rawOperation?, Context.build, rearranged.provider]
    by_cases renames : first.provider = .mongodb
    · rw [if_pos renames, if_pos renames, sameTable]
    · rw [if_neg renames, if_neg renames]
  · simp only [Context.build, rearranged.provider, rearranged.previewFeatures]

theorem model?_eq_of_rearranged
    (name : String) :
    second.model? name = first.model? name :=
  (find?_eq_of_perm rearranged.models unambiguous.modelsApart name).symm

theorem mappingUnits_eq_of_rearranged :
    Check.mappingUnits (.build settings second) second =
      Check.mappingUnits (.build settings first) first := by
  have alike := alike_of_rearranged rearranged unambiguous
  have sameUnits (model : Model) :
      operationUnit (.build settings second) second model =
        operationUnit (.build settings first) first model := by
    funext operation
    rw [operationUnit_congr alike, operationUnit, operationUnit,
      modelSupport_eq_of_rearranged rearranged]
  funext mapping
  rw [Check.mappingUnits, Check.mappingUnits, model?_eq_of_rearranged rearranged unambiguous]
  simp only [sameUnits]

theorem perm_allComposites :
    (allComposites (.build settings second) second).Perm
      (allComposites (.build settings first) first) := by
  have composites :
      (second.composites ++ projections (.build settings second) second.models).Perm
        (first.composites ++ projections (.build settings first) first.models) := by
    rw [projections_congr (alike_of_rearranged rearranged unambiguous)]
    exact rearranged.composites.symm.append (perm_projections _ rearranged.models.symm)
  have alsoApart := (composites.map (·.name)).nodup_iff.mpr unambiguous.compositesApart
  rw [allComposites, allComposites, mergeComposites_eq_append unambiguous.compositesApart,
    mergeComposites_eq_append alsoApart]
  exact composites

theorem firstMappings_of_rearranged :
    firstMappings second.mappings = second.mappings ∧
      firstMappings first.mappings = first.mappings :=
  ⟨firstMappings_eq_self ((rearranged.mappings.map _).nodup_iff.mp unambiguous.mappedOnce),
    firstMappings_eq_self unambiguous.mappedOnce⟩

/-- Rearranged documents have the same units in another order. -/
theorem perm_plannedUnits :
    (plannedUnits (.build settings second) second).Perm
      (plannedUnits (.build settings first) first) := by
  have alike := alike_of_rearranged rearranged unambiguous
  obtain ⟨secondFirst, firstFirst⟩ := firstMappings_of_rearranged rearranged unambiguous
  have sameComposites :
      compositeUnit (.build settings second) = compositeUnit (.build settings first) :=
    funext (compositeUnit_congr alike)
  rw [plannedUnits_eq, plannedUnits_eq, secondFirst, firstFirst, sameComposites,
    mappingUnits_eq_of_rearranged rearranged unambiguous]
  exact ((rearranged.enums.symm.map enumUnit).append
    ((perm_allComposites rearranged unambiguous).map _)).append
      (rearranged.mappings.symm.flatMap_right _)

theorem usedModelsKnown_iff_of_rearranged :
    UsedModelsKnown second ↔ UsedModelsKnown first := by
  obtain ⟨secondFirst, firstFirst⟩ := firstMappings_of_rearranged rearranged unambiguous
  rw [UsedModelsKnown, UsedModelsKnown, secondFirst, firstFirst]
  simp only [rearranged.mappings.mem_iff, model?_eq_of_rearranged rearranged unambiguous]

/-- The path of a unit tells its text. -/
theorem lookup_unitTexts_of_rearranged
    {path : String}
    (noIndex : path ≠ "index.ts") :
    (unitTexts workingDirectory (.build settings second)
        (plannedUnits (.build settings second) second)).lookup path =
      (unitTexts workingDirectory (.build settings first)
        (plannedUnits (.build settings first) first)).lookup path := by
  have alike := alike_of_rearranged rearranged unambiguous
  have units := perm_plannedUnits rearranged unambiguous
  have alsoApart := (units.map SchemaUnit.path).nodup_iff.mpr unambiguous.pathsApart
  have sameTexts :
      (fun unit : SchemaUnit => (unit.path, unit.text workingDirectory (.build settings second))) =
        fun unit => (unit.path, unit.text workingDirectory (.build settings first)) :=
    funext fun unit => by rw [text_congr alike]
  have keys :=
    map_fst_texts workingDirectory (.build settings first)
      (plannedUnits (.build settings second) second)
  rw [lookup_unitTexts alsoApart noIndex, lookup_unitTexts unambiguous.pathsApart noIndex,
    sameTexts]
  exact lookup_eq_of_perm (units.map _) (keys ▸ alsoApart) path

theorem perm_indexLines :
    (indexLines settings second).Perm (indexLines settings first) := by
  have sameLine :
      SchemaUnit.exportLine (.build settings second) =
        SchemaUnit.exportLine (.build settings first) :=
    funext (exportLine_congr (alike_of_rearranged rearranged unambiguous))
  rw [indexLines, indexLines, exportLines, exportLines, sameLine]
  exact (perm_plannedUnits rearranged unambiguous).map _

/-- A document compiles exactly if it does rearranged, and then to the same modules and to an index
with the same lines in another order. -/
theorem compile_of_rearranged :
    ((∃ files, compile workingDirectory settings first = .ok files) ↔
        ∃ others, compile workingDirectory settings second = .ok others) ∧
      ∀ files others,
        compile workingDirectory settings first = .ok files →
          compile workingDirectory settings second = .ok others →
            SameModules settings first second files others := by
  have units := perm_plannedUnits rearranged unambiguous
  simp only [compile_eq_ok_iff, exists_and_left, exists_eq', and_true]
  refine ⟨(usedModelsKnown_iff_of_rearranged rearranged unambiguous).symm, ?_⟩
  rintro _ _ ⟨-, rfl⟩ ⟨-, rfl⟩
  have noIndex {document : Document} :
      ∀ unit ∈ plannedUnits (.build settings document) document, unit.kind ≠ .index :=
    fun unit planned => kind_ne_index_of_planned planned
  constructor
  · rw [map_fst_unitTexts, map_fst_unitTexts]
    exact perm_distinct ((units.map _).append_right _)
  · intro path notIndex
    exact lookup_unitTexts_of_rearranged rearranged unambiguous notIndex
  · exact ⟨lookup_index_unitTexts noIndex, lookup_index_unitTexts noIndex⟩
  · exact perm_indexLines rearranged unambiguous

end Rearranging

/-- A document with everything that may be rearranged in reverse order. -/
def reversed (document : Document) : Document :=
  { document with
    models := document.models.reverse
    enums := document.enums.reverse
    composites := document.composites.reverse
    mappings := document.mappings.reverse }

theorem rearranged_reversed
    (document : Document) :
    Rearranged document (reversed document) where
  models := (List.reverse_perm _).symm
  enums := (List.reverse_perm _).symm
  composites := (List.reverse_perm _).symm
  mappings := (List.reverse_perm _).symm
  provider := rfl
  previewFeatures := rfl
  aggregateSupport := rfl

/-- Settings with which every relation yields projections. -/
def projecting : Settings :=
  { Settings.default with emitsSelect := true, emitsInclude := true }

/-- Users and their posts, with the arguments of a raw operation and with an aggregate that only
the name of a composite shows. -/
def blog : Document where
  provider := .mongodb
  previewFeatures := []
  models :=
    [⟨"User", [⟨"posts", .object, "Post", true, true⟩]⟩,
      ⟨"Post", [⟨"author", .object, "User", false, true⟩]⟩]
  enums := [⟨"Role", ["ADMIN"]⟩, ⟨"Status", ["DRAFT"]⟩]
  composites := [⟨"findUserRaw", []⟩, ⟨"PostCountAggregateInput", []⟩]
  mappings := [⟨"User", [.findMany], ["findRaw"]⟩, ⟨"Post", [.aggregate, .deleteMany], []⟩]
  aggregateSupport := none

theorem compile_of_rearranged_blog :
    ∃ files others,
      compile "/" projecting blog = .ok files ∧
        compile "/" projecting (reversed blog) = .ok others ∧
        SameModules projecting blog (reversed blog) files others ∧
        indexLines projecting blog ≠ indexLines projecting (reversed blog) := by
  have unambiguous : Unambiguous projecting blog :=
    ⟨by decide, by decide, by simp [ListsKnownRawOperations, blog, Operation.rawNames],
      by decide +kernel, by decide +kernel⟩
  have known : UsedModelsKnown blog := by
    simp [UsedModelsKnown, blog, firstMappings, Document.model?]
  obtain ⟨files, compiled, -⟩ := compile_of_usedModelsKnown "/" projecting known
  obtain ⟨bothCompile, sameModules⟩ :=
    compile_of_rearranged (rearranged_reversed blog) unambiguous
  obtain ⟨others, alsoCompiled⟩ := bothCompile.mp ⟨_, compiled⟩
  exact ⟨_, others, compiled, alsoCompiled, sameModules _ _ compiled alsoCompiled,
    by decide +kernel⟩

end ZodSchemas.Assembly
