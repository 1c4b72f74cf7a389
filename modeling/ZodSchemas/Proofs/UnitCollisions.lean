import ZodSchemas.Proofs.References
import ZodSchemas.Proofs.Rendering
import ZodSchemas.Proofs.StructuralChecks

namespace ZodSchemas.Assembly

/-!
# Collisions of units

Paths and exported symbols of planned units follow from the references that the
units answer to.  The checks of a document keep the names of its enumerations
and those of its composites apart, but not the names that become one under the
rules for units: models that differ in the case of their first letter, composites
of which one is renamed to the other, and enumerations named like the unit of
something else.  Without those, and only then, every planned unit has a path and
an exported symbol of its own.
-/

open Metadata

/-- The operations of the first mapping of each model. -/
def plannedOperations (document : Document) : List (String × Operation) :=
  (firstMappings document.mappings).flatMap fun mapping =>
    (mappedOperations mapping).map (mapping.model, ·)

/-- The references that the planned units answer to, in the order of the units. -/
def plannedReferences (context : Context) (document : Document) : List Reference :=
  document.enumNames.map (⟨·, .enumeration⟩)
    ++ (allComposites context document).map (⟨compositeUnitName context ·.name, .object⟩)
    ++ (plannedOperations document).map fun planned =>
        ⟨operationUnitName planned.1 planned.2, .operation⟩

/-- Where every used model is known, the planned units answer to the planned references. -/
theorem map_asReference?_plannedUnits_of_used
    {context : Context}
    {document : Document}
    (known : UsedModelsKnown document) :
    (plannedUnits context document).map SchemaUnit.asReference? =
      (plannedReferences context document).map some := by
  have operations :
      ∀ mapping ∈ firstMappings document.mappings,
        (Check.mappingUnits context document mapping).map SchemaUnit.asReference? =
          (mappedOperations mapping).map fun operation =>
            some ⟨operationUnitName mapping.model operation, .operation⟩ := by
    intro mapping first
    rw [Check.mappingUnits]
    cases found : document.model? mapping.model with
    | none =>
        have unused : mapping.operations = [] := by
          by_contra used
          obtain ⟨model, isModel⟩ := known mapping first used
          rw [found] at isModel
          contradiction
        simp [mappedOperations, OperationMapping.supports, unused]
    | some model =>
        simp only [List.map_map, Function.comp_def, asReference?_operationUnit,
          (model?_eq_some found).1]
  rw [plannedUnits_eq, plannedReferences, plannedOperations, Document.enumNames]
  simp only [List.map_append, List.map_map, List.map_flatMap, Function.comp_def,
    asReference?_enumUnit, asReference?_compositeUnit]
  rw [List.flatMap_congr operations]

theorem map_asReference?_plannedUnits
    {context : Context}
    {document : Document}
    (known :
      ∀ mapping ∈ firstMappings document.mappings,
        ∃ model, document.model? mapping.model = some model) :
    (plannedUnits context document).map SchemaUnit.asReference? =
      (plannedReferences context document).map some :=
  map_asReference?_plannedUnits_of_used fun mapping first _ => known mapping first

/-- What follows from the references of units follows in their order. -/
theorem map_eq_map_of_answers
    {units : List SchemaUnit}
    {references : List Reference}
    (answers : units.map SchemaUnit.asReference? = references.map some)
    {ofUnit : SchemaUnit → String}
    {ofReference : Reference → String}
    (follows :
      ∀ {unit : SchemaUnit} {reference : Reference},
        unit.asReference? = some reference → ofUnit unit = ofReference reference) :
    units.map ofUnit = references.map ofReference := by
  induction units generalizing references with
  | nil =>
      cases references with
      | nil =>
          rfl
      | cons reference others =>
          contradiction
  | cons unit rest inductionHypothesis =>
      cases references with
      | nil =>
          contradiction
      | cons reference others =>
          rw [List.map_cons, List.map_cons, List.cons.injEq] at answers
          rw [List.map_cons, List.map_cons, follows answers.1, inductionHypothesis answers.2]

theorem mem_plannedOperations
    {document : Document}
    {model : String}
    {operation : Operation} :
    (model, operation) ∈ plannedOperations document ↔
      ∃ mapping ∈ firstMappings document.mappings,
        mapping.model = model ∧ mapping.supports operation = true := by
  simp [plannedOperations, mappedOperations, and_comm]

theorem nodup_plannedOperations
    (document : Document) :
    (plannedOperations document).Nodup := by
  have mappingsApart := List.pairwise_map.mp (nodup_firstMappings document.mappings)
  rw [plannedOperations, List.nodup_flatMap]
  constructor
  · intro mapping _
    refine List.Nodup.map (fun _ _ same => congrArg Prod.snd same) ?_
    exact List.Nodup.filter _ (by decide)
  · refine mappingsApart.imp fun {first second} apart => ?_
    intro planned inFirst inSecond
    obtain ⟨_, -, rfl⟩ := List.mem_map.mp inFirst
    obtain ⟨_, -, same⟩ := List.mem_map.mp inSecond
    exact apart (congrArg Prod.fst same).symm

/-- No unit stands at the path of another one or exports the symbol of another one. -/
def UnitsApart (units : List SchemaUnit) : Prop :=
  (units.map SchemaUnit.path).Nodup ∧ (units.map SchemaUnit.exportName).Nodup

/-- What keeps the names of planned units apart.  The checks of a document see to none of it. -/
structure NamesApart (context : Context) (document : Document) : Prop where
  /-- No composite is renamed to what another one is called. -/
  composites :
    ∀ first ∈ allComposites context document, ∀ second ∈ allComposites context document,
      compositeUnitName context first.name = compositeUnitName context second.name →
        first.name = second.name
  /-- No operation is planned for models that differ in the case of the first letter only. -/
  operations :
    ∀ first ∈ firstMappings document.mappings, ∀ second ∈ firstMappings document.mappings,
      ∀ operation, first.supports operation = true → second.supports operation = true →
        Text.capitalizeFirst first.model = Text.capitalizeFirst second.model →
          first.model = second.model
  /-- No enumeration is called like a composite with its mark. -/
  enumerationsAndComposites :
    ∀ name ∈ document.enumNames, ∀ composite ∈ allComposites context document,
      name ≠ compositeUnitName context composite.name ++ "Object"
  /-- No enumeration is called like the unit of an operation. -/
  enumerationsAndOperations :
    ∀ name ∈ document.enumNames, ∀ mapping ∈ firstMappings document.mappings,
      ∀ operation, mapping.supports operation = true →
        name ≠ operationUnitName mapping.model operation

/-- What a planned reference stands for. -/
inductive Planned (context : Context) (document : Document) : Reference → Prop where
  | enumeration
      {name : String}
      (declared : name ∈ document.enumNames) :
      Planned context document ⟨name, .enumeration⟩
  | composite
      {composite : Composite}
      (merged : composite ∈ allComposites context document) :
      Planned context document ⟨compositeUnitName context composite.name, .object⟩
  | operation
      {mapping : OperationMapping}
      {operation : Operation}
      (first : mapping ∈ firstMappings document.mappings)
      (supported : mapping.supports operation = true) :
      Planned context document ⟨operationUnitName mapping.model operation, .operation⟩

theorem mem_plannedReferences
    {context : Context}
    {document : Document}
    {reference : Reference} :
    reference ∈ plannedReferences context document ↔ Planned context document reference := by
  rw [plannedReferences, List.mem_append, List.mem_append, List.mem_map, List.mem_map,
    List.mem_map]
  constructor
  · rintro ((⟨name, declared, rfl⟩ | ⟨composite, merged, rfl⟩) | ⟨⟨model, operation⟩, member, rfl⟩)
    · exact .enumeration declared
    · exact .composite merged
    · obtain ⟨mapping, first, rfl, supported⟩ := mem_plannedOperations.mp member
      exact .operation first supported
  · intro planned
    cases planned with
    | enumeration declared =>
        exact .inl (.inl ⟨_, declared, rfl⟩)
    | composite merged =>
        exact .inl (.inr ⟨_, merged, rfl⟩)
    | operation first supported =>
        exact .inr ⟨_, mem_plannedOperations.mpr ⟨_, first, rfl, supported⟩, rfl⟩

/-- No operation is called like a composite with its mark. -/
theorem operationUnitName_ne_mark
    {model composite : String}
    {operation : Operation} :
    operationUnitName model operation ≠ composite ++ "Object" := by
  intro same
  have endsObject : "Object".toList <:+ (operationUnitName model operation).toList :=
    same ▸ Text.suffix_append composite "Object"
  have apart :
      ¬ ("Object".toList <:+ operation.verb.toList ∨
        operation.verb.toList <:+ "Object".toList) := by
    cases operation <;> decide
  exact apart (Text.endings_comparable endsObject (Text.suffix_append _ _))

/-- With names apart, each planned symbol belongs to one reference. -/
theorem NamesApart.eq_of_symbol_eq
    {context : Context}
    {document : Document}
    (apart : NamesApart context document)
    {reference other : Reference}
    (planned : Planned context document reference)
    (otherPlanned : Planned context document other)
    (same : reference.symbol = other.symbol) :
    reference = other := by
  -- Within one kind the symbol tells the reference.  Of two kinds, no verb ends in the mark of
  -- composites, and enumerations are apart from both by assumption.
  cases planned with
  | enumeration declared =>
      cases otherPlanned with
      | enumeration =>
          exact Reference.eq_of_symbol_eq rfl same
      | composite merged =>
          exact (apart.enumerationsAndComposites _ declared _ merged
            ((Reference.symbol_eq_symbol_object_iff (by decide)).mp same)).elim
      | operation first supported =>
          exact (apart.enumerationsAndOperations _ declared _ first _ supported
            (Reference.symbol_enumeration_eq_symbol_operation_iff.mp same)).elim
  | composite merged =>
      cases otherPlanned with
      | enumeration declared =>
          exact (apart.enumerationsAndComposites _ declared _ merged
            ((Reference.symbol_eq_symbol_object_iff (by decide)).mp same.symm)).elim
      | composite =>
          exact Reference.eq_of_symbol_eq rfl same
      | operation =>
          exact (operationUnitName_ne_mark
            ((Reference.symbol_eq_symbol_object_iff (by decide)).mp same.symm)).elim
  | operation first supported =>
      cases otherPlanned with
      | enumeration declared =>
          exact (apart.enumerationsAndOperations _ declared _ first _ supported
            (Reference.symbol_enumeration_eq_symbol_operation_iff.mp same.symm)).elim
      | composite =>
          exact (operationUnitName_ne_mark
            ((Reference.symbol_eq_symbol_object_iff (by decide)).mp same)).elim
      | operation =>
          exact Reference.eq_of_symbol_eq rfl same

theorem NamesApart.nodup_plannedReferences
    {context : Context}
    {document : Document}
    (apart : NamesApart context document)
    (sound : Check.Sound document) :
    (plannedReferences context document).Nodup := by
  have composites :
      ((allComposites context document).map fun composite =>
        (⟨compositeUnitName context composite.name, .object⟩ : Reference)).Nodup := by
    have byName := nodup_mergeComposites sound.compositesApart
      (projections context document.models)
    refine List.Nodup.map_on ?_ byName.of_map
    intro first firstMember second secondMember same
    have sameName :=
      apart.composites first firstMember second secondMember (congrArg Reference.name same)
    exact List.inj_on_of_nodup_map byName firstMember secondMember sameName
  have operations :
      ((plannedOperations document).map fun planned =>
        (⟨operationUnitName planned.1 planned.2, .operation⟩ : Reference)).Nodup := by
    refine List.Nodup.map_on ?_ (nodup_plannedOperations document)
    rintro ⟨model, operation⟩ inFirst ⟨other, otherOperation⟩ inSecond same
    obtain ⟨first, firstMember, rfl, supported⟩ := mem_plannedOperations.mp inFirst
    obtain ⟨second, secondMember, rfl, otherSupported⟩ := mem_plannedOperations.mp inSecond
    obtain ⟨sameModel, rfl⟩ := operationUnitName_inj.mp (congrArg Reference.name same)
    rw [apart.operations first firstMember second secondMember operation supported
      otherSupported sameModel]
  rw [plannedReferences, List.nodup_append, List.nodup_append]
  refine ⟨⟨sound.enumsApart.map fun _ _ same => congrArg Reference.name same, composites, ?_⟩,
    operations, ?_⟩
  · intro reference inEnums other inComposites same
    obtain ⟨_, -, rfl⟩ := List.mem_map.mp inEnums
    obtain ⟨_, -, rfl⟩ := List.mem_map.mp inComposites
    exact nomatch congrArg Reference.kind same
  · intro reference earlier other inOperations same
    obtain ⟨_, -, rfl⟩ := List.mem_map.mp inOperations
    rcases List.mem_append.mp earlier with inEnums | inComposites
    · obtain ⟨_, -, rfl⟩ := List.mem_map.mp inEnums
      exact nomatch congrArg Reference.kind same
    · obtain ⟨_, -, rfl⟩ := List.mem_map.mp inComposites
      exact nomatch congrArg Reference.kind same

/-- Where no two planned references share a symbol, names are apart. -/
theorem namesApart_of_nodup_symbols
    {context : Context}
    {document : Document}
    (symbols : ((plannedReferences context document).map Reference.symbol).Nodup) :
    NamesApart context document := by
  have injective := List.inj_on_of_nodup_map symbols
  have referencesApart := symbols.of_map
  rw [plannedReferences, List.nodup_append, List.nodup_append] at referencesApart
  obtain ⟨⟨-, compositesApart, -⟩, operationsApart, -⟩ := referencesApart
  constructor
  · intro first firstMember second secondMember same
    have sameReference :
        (⟨compositeUnitName context first.name, .object⟩ : Reference) =
          ⟨compositeUnitName context second.name, .object⟩ := by
      rw [same]
    rw [List.inj_on_of_nodup_map compositesApart firstMember secondMember sameReference]
  · intro first firstMember second secondMember operation supported otherSupported same
    have sameReference :
        (⟨operationUnitName first.model operation, .operation⟩ : Reference) =
          ⟨operationUnitName second.model operation, .operation⟩ := by
      rw [operationUnitName_inj.mpr ⟨same, rfl⟩]
    have samePlanned :=
      List.inj_on_of_nodup_map operationsApart
        (mem_plannedOperations.mpr ⟨first, firstMember, rfl, supported⟩)
        (mem_plannedOperations.mpr ⟨second, secondMember, rfl, otherSupported⟩) sameReference
    exact congrArg Prod.fst samePlanned
  · intro name declared composite merged same
    have sameReference :=
      injective (mem_plannedReferences.mpr (.enumeration declared))
        (mem_plannedReferences.mpr (.composite merged))
        ((Reference.symbol_eq_symbol_object_iff (by decide)).mpr same)
    exact nomatch congrArg Reference.kind sameReference
  · intro name declared mapping first operation supported same
    have sameReference :=
      injective (mem_plannedReferences.mpr (.enumeration declared))
        (mem_plannedReferences.mpr (.operation first supported))
        (Reference.symbol_enumeration_eq_symbol_operation_iff.mpr same)
    exact nomatch congrArg Reference.kind sameReference

theorem Planned.slash_not_mem_of_operation
    {context : Context}
    {document : Document}
    (sound : Check.Sound document)
    {reference : Reference}
    (planned : Planned context document reference)
    (isOperation : reference.kind = .operation) :
    '/' ∉ reference.name.toList := by
  cases planned with
  | enumeration | composite =>
      contradiction
  | operation first supported =>
      exact slash_not_mem_operationUnitName
        (sound.slash_not_mem_of_mapped (mem_of_mem_firstMappings first)) _

/-- With names apart, the planned modules stand at different places. -/
theorem NamesApart.nodup_paths
    {context : Context}
    {document : Document}
    (apart : NamesApart context document)
    (sound : Check.Sound document) :
    ((plannedReferences context document).map fun reference => reference.stem ++ ".ts").Nodup := by
  refine List.Nodup.map_on ?_ (apart.nodup_plannedReferences sound)
  intro reference member other otherMember same
  have planned := mem_plannedReferences.mp member
  have otherPlanned := mem_plannedReferences.mp otherMember
  exact Reference.eq_of_stem_eq (planned.slash_not_mem_of_operation sound)
    (otherPlanned.slash_not_mem_of_operation sound) ((String.append_left_inj _).mp same)

/-- The planned units export different symbols exactly when names are apart. -/
theorem nodup_symbols_iff_namesApart
    {context : Context}
    {document : Document}
    (sound : Check.Sound document) :
    ((plannedReferences context document).map Reference.symbol).Nodup ↔
      NamesApart context document := by
  refine ⟨namesApart_of_nodup_symbols, fun apart => ?_⟩
  refine List.Nodup.map_on ?_ (apart.nodup_plannedReferences sound)
  intro reference member other otherMember same
  exact apart.eq_of_symbol_eq (mem_plannedReferences.mp member)
    (mem_plannedReferences.mp otherMember) same

/-- A sound document compiles to one file for each path of a planned unit and to the index. -/
theorem keys_of_compile
    (workingDirectory : String)
    (settings : Settings)
    {document : Document}
    (sound : Check.Sound document) :
    ∃ files,
      compile workingDirectory settings document = .ok files ∧
        files.map Prod.fst =
          distinct ((plannedUnits (.build settings document) document).map SchemaUnit.path)
            ++ ["index.ts"] := by
  obtain ⟨files, compiled, rendered⟩ :=
    compile_of_known workingDirectory settings sound.firstMappedModelsKnown
  refine ⟨_, compiled, ?_⟩
  rw [contentsByPath_eq_tableOf, map_fst_tableOf]
  change distinct (files.map RenderedFile.path) = _
  rw [map_path_of_rendered rendered, withIndex, List.map_append, List.map_singleton]
  change distinct (_ ++ ["index.ts"]) = _
  rw [distinct_concat, if_neg]
  rw [map_eq_map_of_answers (map_asReference?_plannedUnits sound.firstMappedModelsKnown)
    SchemaUnit.path_of_asReference]
  intro member
  obtain ⟨reference, -, same⟩ := List.mem_map.mp member
  exact reference.stem_ne_index ((String.append_left_inj _).mp same)

/-- A document without errors compiles to one file for each path of a planned unit and to the
index; the planned units have paths and exported symbols of their own exactly when names are
apart, and then there is one file for each of them. -/
theorem units_apart_iff_namesApart
    (workingDirectory : String)
    (settings : Settings)
    (document : Document)
    (noErrors : (Check.full settings document).hasErrors = false) :
    ∃ files,
      compile workingDirectory settings document = .ok files ∧
        files.map Prod.fst =
          distinct ((plannedUnits (.build settings document) document).map SchemaUnit.path)
            ++ ["index.ts"] ∧
        (UnitsApart (plannedUnits (.build settings document) document) ↔
          NamesApart (.build settings document) document) ∧
        (NamesApart (.build settings document) document →
          files.map Prod.fst =
            (plannedUnits (.build settings document) document).map SchemaUnit.path
              ++ ["index.ts"]) := by
  have sound := Check.sound_of_full noErrors
  obtain ⟨files, compiled, keys⟩ := keys_of_compile workingDirectory settings sound
  have answers :
      (plannedUnits (.build settings document) document).map SchemaUnit.asReference? =
        (plannedReferences (.build settings document) document).map some :=
    map_asReference?_plannedUnits sound.firstMappedModelsKnown
  have paths := map_eq_map_of_answers answers SchemaUnit.path_of_asReference
  have symbols := map_eq_map_of_answers answers SchemaUnit.exportName_of_asReference
  refine ⟨files, compiled, keys, ?_, ?_⟩
  · rw [UnitsApart, paths, symbols, nodup_symbols_iff_namesApart sound]
    exact and_iff_right_of_imp fun apart => apart.nodup_paths sound
  · intro apart
    rw [keys, paths, distinct_eq_self (apart.nodup_paths sound)]

/-- Two models that differ in the case of their first letter, each with one operation. -/
def alikeModels : Document where
  provider := .postgresql
  previewFeatures := []
  models := [⟨"user", []⟩, ⟨"User", []⟩]
  enums := []
  composites :=
    [⟨"userWhereInput", [⟨"id", true, false, [⟨"Int", false, .scalar, none⟩]⟩]⟩,
      ⟨"UserWhereInput", [⟨"id", true, false, [⟨"Int", false, .scalar, none⟩]⟩]⟩]
  mappings := [⟨"user", [.deleteMany], []⟩, ⟨"User", [.deleteMany], []⟩]
  aggregateSupport := none

theorem units_apart_iff_alikeModels :
    (Check.full .default alikeModels).hasErrors = false ∧
      ∃ files,
        compile "/" .default alikeModels = .ok files ∧
          files.map Prod.fst =
            distinct ((plannedUnits (.build .default alikeModels) alikeModels).map SchemaUnit.path)
              ++ ["index.ts"] ∧
          (UnitsApart (plannedUnits (.build .default alikeModels) alikeModels) ↔
            NamesApart (.build .default alikeModels) alikeModels) ∧
          (NamesApart (.build .default alikeModels) alikeModels →
            files.map Prod.fst =
              (plannedUnits (.build .default alikeModels) alikeModels).map SchemaUnit.path
                ++ ["index.ts"]) := by
  have noErrors : (Check.full .default alikeModels).hasErrors = false := by
    decide +kernel
  exact ⟨noErrors, units_apart_iff_namesApart "/" .default alikeModels noErrors⟩

/-- Nothing is found in the document, and the operations of both models become one file. -/
theorem not_unitsApart_alikeModels :
    Check.full .default alikeModels = [] ∧
      ¬ UnitsApart (plannedUnits (.build .default alikeModels) alikeModels) ∧
      ∃ files,
        compile "/" .default alikeModels = .ok files ∧
          files.map Prod.fst =
            ["objects/userWhereInput.schema.ts", "objects/UserWhereInput.schema.ts",
              "UserDeleteMany.schema.ts", "index.ts"] := by
  have noErrors : (Check.metadata alikeModels).hasErrors = false := by
    decide +kernel
  obtain ⟨files, compiled, keys⟩ :=
    keys_of_compile "/" .default (Check.sound_of_metadata noErrors)
  have onePath :
      ¬ ((plannedUnits (.build .default alikeModels) alikeModels).map SchemaUnit.path).Nodup := by
    decide +kernel
  refine ⟨by decide +kernel, fun apart => onePath apart.1, files, compiled, ?_⟩
  rw [keys]
  decide +kernel

end ZodSchemas.Assembly
