import ZodSchemas.Proofs.UnitCollisions
import ZodSchemas.Proofs.UnknownModels

namespace ZodSchemas

/-!
# Compiled files

A compilation that succeeds leaves one table: the text of each planned unit under
its path, and behind them the index.  What the index re-exports is a line for
each planned unit, in the order of the units.
-/

open Metadata

namespace SchemaUnit

/-- The text that a unit is rendered to; every planned unit and every index has one. -/
def text (workingDirectory : String) (context : Context) (unit : SchemaUnit) : String :=
  ((unit.render workingDirectory context).toOption.map (·.content)).getD ""

theorem text_of_render
    {workingDirectory : String}
    {context : Context}
    {unit : SchemaUnit}
    {file : RenderedFile}
    (rendered : unit.render workingDirectory context = .ok file) :
    unit.text workingDirectory context = file.content := by
  rw [text, rendered]
  rfl

end SchemaUnit

namespace Assembly

variable {workingDirectory : String} {settings : Settings} {document : Document}

/-- The texts of planned units and of their index by path. -/
def unitTexts (workingDirectory : String) (context : Context) (units : List SchemaUnit) :
    List (String × String) :=
  tableOf (fun unit => (unit.path, unit.text workingDirectory context)) (withIndex units)

theorem contentsByPath_of_rendered
    {context : Context}
    {units : List SchemaUnit}
    {files : List RenderedFile}
    (rendered : RenderedFrom workingDirectory context units files) :
    contentsByPath files =
      tableOf (fun unit => (unit.path, unit.text workingDirectory context)) units := by
  have entries :
      files.map (fun file => (file.path, file.content)) =
        units.map fun unit => (unit.path, unit.text workingDirectory context) := by
    induction rendered with
    | nil =>
        rfl
    | cons atUnit _ inductionHypothesis =>
        rw [List.map_cons, List.map_cons, inductionHypothesis, path_of_render atUnit,
          SchemaUnit.text_of_render atUnit]
  rw [contentsByPath_eq_tableOf, tableOf_eq_tableOf_map, entries, ← tableOf_eq_tableOf_map]

theorem usedModelsKnown_of_compile
    {files : List (String × String)}
    (compiled : compile workingDirectory settings document = .ok files) :
    UsedModelsKnown document := by
  apply usedModelsKnown_of_findSome?_eq_none
  cases found : (firstMappings document.mappings).findSome? (unknownModel? document) with
  | none =>
      rfl
  | some name =>
      have failed : compile workingDirectory settings document = .error (.unknownModel name) :=
        compile_eq_error_iff.mpr ⟨name, rfl, findSome?_eq_some_iff_firstUnknown.mp found⟩
      rw [compiled] at failed
      contradiction

/-- A document compiles exactly if its used models are known, and then to the texts of its planned
units and of their index. -/
theorem compile_eq_ok_iff
    {files : List (String × String)} :
    compile workingDirectory settings document = .ok files ↔
      UsedModelsKnown document ∧
        unitTexts workingDirectory (.build settings document)
          (plannedUnits (.build settings document) document) = files := by
  constructor
  · intro compiled
    have known := usedModelsKnown_of_compile compiled
    obtain ⟨rendered, alsoCompiled, each⟩ :=
      compile_of_usedModelsKnown workingDirectory settings known
    rw [compiled, contentsByPath_of_rendered each] at alsoCompiled
    exact ⟨known, (Except.ok.inj alsoCompiled).symm⟩
  · rintro ⟨known, rfl⟩
    obtain ⟨rendered, compiled, each⟩ :=
      compile_of_usedModelsKnown workingDirectory settings known
    rw [compiled, contentsByPath_of_rendered each]
    rfl

section Units

variable {context : Context} {units : List SchemaUnit}

/-- The lines that re-export units, in their order. -/
def exportLines (context : Context) (units : List SchemaUnit) : List String :=
  units.map fun unit => SchemaUnit.exportLine context unit.stem

theorem text_index
    (noIndex : ∀ unit ∈ units, unit.kind ≠ .index) :
    (SchemaUnit.index units).text workingDirectory context =
      joinLines (exportLines context units) := by
  have allUnits : units.filter (·.kind ≠ .index) = units := by
    simpa [List.filter_eq_self] using noIndex
  have isText :
      (SchemaUnit.index units).text workingDirectory context =
        joinLines ((SchemaUnit.index units).members.map (SchemaUnit.exportLine context)) :=
    rfl
  rw [isText, SchemaUnit.index, allUnits, List.map_map]
  rfl

/-- The index re-exports each unit by a line, in the order of the units. -/
theorem lookup_index_unitTexts
    (noIndex : ∀ unit ∈ units, unit.kind ≠ .index) :
    (unitTexts workingDirectory context units).lookup "index.ts" =
      some (joinLines (exportLines context units)) := by
  rw [unitTexts, withIndex, lookup_tableOf_concat, text_index noIndex]
  exact if_pos rfl

theorem map_fst_unitTexts
    (workingDirectory : String)
    (context : Context)
    (units : List SchemaUnit) :
    (unitTexts workingDirectory context units).map Prod.fst =
      distinct (units.map SchemaUnit.path ++ ["index.ts"]) := by
  rw [unitTexts, map_fst_tableOf, withIndex, List.map_append]
  rfl

theorem map_fst_texts
    (workingDirectory : String)
    (context : Context)
    (units : List SchemaUnit) :
    (units.map fun unit => (unit.path, unit.text workingDirectory context)).map Prod.fst =
      units.map SchemaUnit.path := by
  rw [List.map_map]
  rfl

/-- Where units have paths of their own, the text of each is found under its path. -/
theorem lookup_unitTexts
    (apart : (units.map SchemaUnit.path).Nodup)
    {path : String}
    (noIndex : path ≠ "index.ts") :
    (unitTexts workingDirectory context units).lookup path =
      (units.map fun unit => (unit.path, unit.text workingDirectory context)).lookup path := by
  have keys := map_fst_texts workingDirectory context units
  rw [unitTexts, withIndex, lookup_tableOf_concat, tableOf_eq_tableOf_map,
    tableOf_id_eq_self (keys ▸ apart)]
  exact if_neg noIndex

theorem mem_keys_unitTexts_iff
    {path : String} :
    path ∈ (unitTexts workingDirectory context units).map Prod.fst ↔
      path = "index.ts" ∨ ∃ unit ∈ units, unit.path = path := by
  rw [map_fst_unitTexts, mem_distinct, List.mem_append, List.mem_singleton, List.mem_map, or_comm]

end Units

/-- Where planned units export different symbols, they stand at different places. -/
theorem nodup_paths_of_nodup_exportNames
    {context : Context}
    {document : Document}
    (sound : Check.Sound document)
    (exportsApart : ((plannedUnits context document).map SchemaUnit.exportName).Nodup) :
    ((plannedUnits context document).map SchemaUnit.path).Nodup := by
  have answers :
      (plannedUnits context document).map SchemaUnit.asReference? =
        (plannedReferences context document).map some :=
    map_asReference?_plannedUnits sound.firstMappedModelsKnown
  rw [map_eq_map_of_answers answers SchemaUnit.exportName_of_asReference] at exportsApart
  rw [map_eq_map_of_answers answers SchemaUnit.path_of_asReference]
  exact (namesApart_of_nodup_symbols exportsApart).nodup_paths sound

theorem path_ne_index_of_planned
    {context : Context}
    {document : Document}
    {unit : SchemaUnit}
    (planned : unit ∈ plannedUnits context document) :
    unit.path ≠ "index.ts" := by
  obtain ⟨reference, answers⟩ : ∃ reference, unit.asReference? = some reference := by
    cases mem_plannedUnits.mp planned <;> exact ⟨_, rfl⟩
  rw [SchemaUnit.path_of_asReference answers]
  exact fun isIndex => reference.stem_ne_index ((String.append_left_inj _).mp isIndex)

/-- Where planned units stand at different places, the text of each is found under its path. -/
theorem lookup_text_of_planned
    (workingDirectory : String)
    {context : Context}
    {document : Document}
    (pathsApart : ((plannedUnits context document).map SchemaUnit.path).Nodup)
    {unit : SchemaUnit}
    (planned : unit ∈ plannedUnits context document) :
    (unitTexts workingDirectory context (plannedUnits context document)).lookup unit.path =
      some (unit.text workingDirectory context) := by
  have keys := map_fst_texts workingDirectory context (plannedUnits context document)
  rw [lookup_unitTexts pathsApart (path_ne_index_of_planned planned),
    lookup_eq_some_iff_mem (keys ▸ pathsApart)]
  exact List.mem_map_of_mem planned

end Assembly

end ZodSchemas
