import ZodSchemas.Proofs.BoundNames
import ZodSchemas.Proofs.CompiledFiles
import ZodSchemas.Proofs.DanglingReferences
import ZodSchemas.Proofs.ModuleReferences

namespace ZodSchemas

/-!
# Scopes of modules

The symbols that a module imports are the only names in it that metadata can
choose freely.  Where planned units export different symbols, two references to
planned units never share one, so a name is bound twice only in the module of a
composite: by an enumeration that is called like a constant of the shared
validator for arbitrary JSON, or by a reference that no unit answers to.
-/

namespace SchemaUnit

open Assembly

/-- The enumerations that are called like the constants of the shared validator. -/
def helperReferences : List Reference :=
  [⟨"literal", .enumeration⟩, ⟨"json", .enumeration⟩]

/-- The symbol that a composite imports is no local constant, and it is one of the shared validator
exactly when it belongs to an enumeration of that name. -/
theorem symbol_of_isCompositeReference
    {reference : Reference}
    (valid : IsCompositeReference reference) :
    reference.symbol ≠ "Schema" ∧
      (reference.symbol ∈ helperNames ↔ reference ∈ helperReferences) := by
  obtain ⟨name, kind⟩ := reference
  have unlike
      {ending : String}
      (ends : ending.toList <:+ (Reference.symbol ⟨name, kind⟩).toList)
      (unended : ∀ fixed ∈ "Schema" :: helperNames, ¬ ending.toList <:+ fixed.toList) :
      (Reference.symbol ⟨name, kind⟩) ∉ "Schema" :: helperNames :=
    fun fixed => unended _ fixed ends
  cases kind with
  | object =>
      have apart := unlike (Text.suffix_append name "ObjectSchema") (by decide)
      rw [List.mem_cons, not_or] at apart
      exact ⟨apart.1, iff_of_false apart.2 (by simp [helperReferences])⟩
  | operation =>
      obtain ⟨model, rfl⟩ := valid
      have ends :
          "FindManySchema".toList <:+
            (Reference.symbol ⟨operationUnitName model .findMany, .operation⟩).toList := by
        refine ⟨(Text.capitalizeFirst model).toList, ?_⟩
        simp [Reference.symbol, operationUnitName, Metadata.Operation.verb,
          String.toList_append]
      have apart := unlike ends (by decide)
      rw [List.mem_cons, not_or] at apart
      exact ⟨apart.1, iff_of_false apart.2 (by simp [helperReferences])⟩
  | enumeration =>
      have symbolIs (other : String) :
          Reference.symbol ⟨name, .enumeration⟩ = other ++ "Schema" ↔ name = other :=
        String.append_left_inj _
      refine ⟨mt (symbolIs "").mp valid, ?_⟩
      change _ ∈ ["literal" ++ "Schema", "json" ++ "Schema"] ↔ _
      simp only [helperReferences, List.mem_cons, List.not_mem_nil, or_false, symbolIs,
        Reference.mk.injEq, and_true]

/-- What holds of the scope of every planned unit. -/
structure IsScoped (unit : SchemaUnit) : Prop where
  importsOthers : ∃ own, unit.asReference? = some own ∧ own ∉ unit.references
  helperInComposites : unit.usesJson = true → unit.kind = .object
  compositeReferences :
    unit.kind = .object → ∀ reference ∈ unit.references, IsCompositeReference reference

theorem isScoped_of_planned
    {context : Context}
    {document : Metadata.Document}
    (named : ∀ composite ∈ document.composites, NamesTypes composite)
    {unit : SchemaUnit}
    (planned : unit ∈ plannedUnits context document) :
    unit.IsScoped := by
  cases mem_plannedUnits.mp planned with
  | @enumeration enumType declared =>
      have noHelper := Expr.usesJson_enumeration enumType.values
      refine ⟨⟨_, rfl, by simp [references_enumUnit]⟩, fun usesJson => ?_, nofun⟩
      exact absurd usesJson (Bool.eq_false_iff.mp noHelper)
  | @composite composite merged =>
      have valid :
          ∀ reference ∈ (compositeUnit context composite).references,
            some reference ≠ (compositeUnit context composite).selfReference? ∧
              IsCompositeReference reference :=
        references_compositeUnit (namesTypes_of_merged named merged)
      refine ⟨⟨_, rfl, fun member => (valid _ member).1 rfl⟩, fun _ => rfl,
        fun _ reference member => (valid reference member).2⟩
  | @operation mapping model operation first known supported =>
      refine ⟨⟨_, rfl, fun member => ?_⟩, fun usesJson => ?_, nofun⟩
      · rcases references_operationUnit _ _ _ _ _ member with isComposite | isFieldEnum
        · contradiction
        · exact nomatch congrArg Reference.kind isFieldEnum
      · rw [usesJson_operationUnit] at usesJson
        contradiction

/-- The names that the module of a planned unit binds are distinct exactly when the symbols that it
imports are, none of them is the one that it exports, and no enumeration that it imports is called
like a constant of the shared validator while that is defined. -/
theorem IsScoped.nodup_boundNames_iff_apart
    {unit : SchemaUnit}
    (isScoped : unit.IsScoped) :
    unit.boundNames.Nodup ↔
      unit.importedNames.Nodup ∧
        (∀ reference ∈ unit.references, reference.symbol ≠ unit.exportName) ∧
        (unit.usesJson = true → ∀ reference ∈ unit.references, reference ∉ helperReferences) := by
  have undefined :
      ∀ reference ∈ unit.references,
        (reference.symbol ∉ unit.definedNames ↔
          reference.symbol ≠ unit.exportName ∧
            (unit.usesJson = true → reference ∉ helperReferences)) := by
    intro reference member
    by_cases isObject : unit.kind = .object
    · obtain ⟨noLocal, ofHelper⟩ :=
        symbol_of_isCompositeReference (isScoped.compositeReferences isObject reference member)
      rw [← not_congr ofHelper]
      cases needsHelper : unit.usesJson <;>
        simp [definedNames, isObject, needsHelper, noLocal, and_comm]
    · have noHelper : unit.usesJson = false := by
        simpa using mt isScoped.helperInComposites isObject
      simp [definedNames, isObject, noHelper]
  rw [nodup_boundNames_iff isScoped.helperInComposites, importedNames, List.forall_mem_map,
    forall₂_congr undefined]
  refine and_congr_right fun _ => ⟨fun apart => ?_, fun apart reference member => ?_⟩
  · exact ⟨fun reference member => (apart reference member).1,
      fun needsHelper reference member => (apart reference member).2 needsHelper⟩
  · exact ⟨apart.1 reference member, fun needsHelper => apart.2 needsHelper reference member⟩

/-- The symbol of an import is neither the one that the module exports nor that of another import. -/
def ImportsAlone (unit : SchemaUnit) (reference : Reference) : Prop :=
  reference.symbol ≠ unit.exportName ∧
    ∀ other ∈ unit.references, other.symbol = reference.symbol → other = reference

/-- What keeps the names in a module apart: it imports no enumeration that is called like a constant
of the shared validator next to these constants, and nothing that is missing shares a symbol. -/
structure CapturesNothing (units : List SchemaUnit) (unit : SchemaUnit) : Prop where
  helper : unit.usesJson = true → ∀ reference ∈ unit.references, reference ∉ helperReferences
  missing :
    ∀ reference ∈ unit.references, ¬ Generates units reference → unit.ImportsAlone reference

/-- Where units export different symbols, those that answer to references of one symbol answer to
one reference. -/
theorem eq_of_generates
    {units : List SchemaUnit}
    (exportsApart : (units.map exportName).Nodup)
    {reference other : Reference}
    (generated : Generates units reference)
    (otherGenerated : Generates units other)
    (same : reference.symbol = other.symbol) :
    reference = other := by
  obtain ⟨unit, member, answers⟩ := generated
  obtain ⟨otherUnit, otherMember, otherAnswers⟩ := otherGenerated
  have sameExport : unit.exportName = otherUnit.exportName := by
    rw [exportName_of_asReference answers, exportName_of_asReference otherAnswers, same]
  have sameUnit := List.inj_on_of_nodup_map exportsApart member otherMember sameExport
  rw [sameUnit, otherAnswers] at answers
  exact (Option.some.inj answers).symm

/-- Where units export different symbols, the imports of one of them are apart from each other and
from its own symbol exactly when this holds of those that no unit answers to. -/
theorem IsScoped.imports_apart_iff
    {units : List SchemaUnit}
    (exportsApart : (units.map exportName).Nodup)
    {unit : SchemaUnit}
    (member : unit ∈ units)
    (isScoped : unit.IsScoped) :
    (unit.importedNames.Nodup ∧
        ∀ reference ∈ unit.references, reference.symbol ≠ unit.exportName) ↔
      ∀ reference ∈ unit.references,
        ¬ Generates units reference → unit.ImportsAlone reference := by
  constructor
  · rintro ⟨imported, exported⟩ reference isImport _
    refine ⟨exported reference isImport, fun other isOther same => ?_⟩
    exact List.inj_on_of_nodup_map imported isOther isImport same
  · intro alone
    constructor
    · refine List.Nodup.map_on ?_ unit.nodup_references
      intro reference isImport other isOther same
      by_cases generated : Generates units reference
      · by_cases otherGenerated : Generates units other
        · exact eq_of_generates exportsApart generated otherGenerated same
        · exact (alone other isOther otherGenerated).2 reference isImport same
      · exact ((alone reference isImport generated).2 other isOther same.symm).symm
    · intro reference isImport isExport
      by_cases generated : Generates units reference
      · -- Only the unit itself exports its symbol, and it does not import itself.
        obtain ⟨own, answers, unimported⟩ := isScoped.importsOthers
        have isOwn : reference = own :=
          eq_of_generates exportsApart generated ⟨unit, member, answers⟩
            (isExport.trans (exportName_of_asReference answers))
        exact unimported (isOwn ▸ isImport)
      · exact (alone reference isImport generated).1 isExport

/-- Where units export different symbols, the module of one of them binds distinct names exactly
when it captures nothing. -/
theorem IsScoped.nodup_boundNames_iff_capturesNothing
    {units : List SchemaUnit}
    (exportsApart : (units.map exportName).Nodup)
    {unit : SchemaUnit}
    (member : unit ∈ units)
    (isScoped : unit.IsScoped) :
    unit.boundNames.Nodup ↔ unit.CapturesNothing units := by
  rw [isScoped.nodup_boundNames_iff_apart, ← and_assoc,
    isScoped.imports_apart_iff exportsApart member]
  exact ⟨fun ⟨missing, helper⟩ => ⟨helper, missing⟩, fun nothing => ⟨nothing.missing, nothing.helper⟩⟩

end SchemaUnit

namespace Assembly

open Metadata

/-- Enumerations import nothing, and the symbols that an operation imports are different. -/
theorem nodup_boundNames_of_not_composite
    {context : Context}
    {document : Document}
    {unit : SchemaUnit}
    (planned : unit ∈ plannedUnits context document)
    (noComposite : unit.kind ≠ .object) :
    unit.boundNames.Nodup := by
  cases mem_plannedUnits.mp planned with
  | @enumeration enumType declared =>
      have noHelper : (enumUnit enumType).usesJson = false :=
        Expr.usesJson_enumeration enumType.values
      rw [SchemaUnit.nodup_boundNames_iff (by simp [noHelper])]
      rw [SchemaUnit.importedNames, references_enumUnit]
      exact ⟨.nil, List.forall_mem_nil _⟩
  | composite merged =>
      contradiction
  | @operation mapping model operation first known supported =>
      have noHelper := usesJson_operationUnit context document model operation
      have valid := references_operationUnit context document model operation
      rw [SchemaUnit.nodup_boundNames_iff (by simp [noHelper])]
      constructor
      · refine List.Nodup.map_on ?_ (SchemaUnit.nodup_references _)
        intro reference member other otherMember same
        exact (valid reference member).eq_of_symbol_eq (valid other otherMember) same
      · refine List.forall_mem_map.mpr fun reference member => ?_
        rw [SchemaUnit.definedNames, noHelper, if_neg noComposite, if_neg (by decide)]
        exact List.mem_singleton.not.mpr ((valid reference member).symbol_ne_operation _ _)

/-- The text of a planned unit binds the names of its module in their order. -/
theorem bindsInTurn_text
    (workingDirectory : String)
    {context : Context}
    {document : Document}
    {unit : SchemaUnit}
    (planned : unit ∈ plannedUnits context document) :
    BindsInTurn unit.boundNames (unit.text workingDirectory context) := by
  obtain ⟨body, rendered⟩ := render_of_planned workingDirectory planned
  exact ⟨unit.moduleLines workingDirectory context body, SchemaUnit.text_of_render rendered,
    SchemaUnit.binds_moduleLines workingDirectory context (kind_ne_index_of_planned planned) body⟩

/-- A document without errors, whose composites name the types of their alternatives and whose
planned units export different symbols, compiles to a module for each planned unit and the index.
The module of a unit binds the names of the unit in their order.  They are different in the modules
of enumerations and operations, and in the module of a composite exactly when it captures nothing. -/
theorem modules_bind_apart_iff_capturesNothing
    (workingDirectory : String)
    (settings : Settings)
    (document : Document)
    (noErrors : (Check.full settings document).hasErrors = false)
    (named : ∀ composite ∈ document.composites, NamesTypes composite)
    (exportsApart :
      ((plannedUnits (.build settings document) document).map SchemaUnit.exportName).Nodup) :
    ∃ files,
      compile workingDirectory settings document = .ok files ∧
        (∀ file ∈ files,
          file.1 = "index.ts" ∨
            ∃ unit ∈ plannedUnits (.build settings document) document, unit.path = file.1) ∧
        ∀ unit ∈ plannedUnits (.build settings document) document,
          (∃ content,
            files.lookup unit.path = some content ∧ BindsInTurn unit.boundNames content) ∧
          (unit.kind ≠ .object → unit.boundNames.Nodup) ∧
          (unit.boundNames.Nodup ↔
            unit.CapturesNothing (plannedUnits (.build settings document) document)) := by
  have sound := Check.sound_of_full noErrors
  have pathsApart := nodup_paths_of_nodup_exportNames sound exportsApart
  have known : UsedModelsKnown document :=
    fun mapping first _ => sound.firstMappedModelsKnown mapping first
  refine ⟨_, compile_eq_ok_iff.mpr ⟨known, rfl⟩, ?_, fun unit planned => ⟨?_, ?_, ?_⟩⟩
  · intro file member
    exact mem_keys_unitTexts_iff.mp (List.mem_map_of_mem member)
  · exact ⟨_, lookup_text_of_planned workingDirectory pathsApart planned,
      bindsInTurn_text workingDirectory planned⟩
  · exact nodup_boundNames_of_not_composite planned
  · exact (SchemaUnit.isScoped_of_planned named planned).nodup_boundNames_iff_capturesNothing
      exportsApart planned

/-- A composite with a field of arbitrary JSON and one of an enumeration. -/
def taggedNote (enumName : String) : Document where
  provider := .postgresql
  previewFeatures := []
  models := []
  enums := [⟨enumName, ["A"]⟩]
  composites :=
    [⟨"NoteFilter",
      [⟨"data", true, false, [⟨"Json", false, .scalar, none⟩]⟩,
        ⟨"kind", true, false, [⟨enumName, false, .enumTypes, none⟩]⟩]⟩]
  mappings := []
  aggregateSupport := none

theorem modules_bind_apart_iff_taggedNote :
    (Check.full .default (taggedNote "Kind")).hasErrors = false ∧
      (∀ composite ∈ (taggedNote "Kind").composites, NamesTypes composite) ∧
      ((plannedUnits (.build .default (taggedNote "Kind")) (taggedNote "Kind")).map
        SchemaUnit.exportName).Nodup ∧
      ∃ files,
        compile "/" .default (taggedNote "Kind") = .ok files ∧
          (∀ file ∈ files,
            file.1 = "index.ts" ∨
              ∃ unit ∈ plannedUnits (.build .default (taggedNote "Kind")) (taggedNote "Kind"),
                unit.path = file.1) ∧
          ∀ unit ∈ plannedUnits (.build .default (taggedNote "Kind")) (taggedNote "Kind"),
            (∃ content,
              files.lookup unit.path = some content ∧ BindsInTurn unit.boundNames content) ∧
            (unit.kind ≠ .object → unit.boundNames.Nodup) ∧
            (unit.boundNames.Nodup ↔
              unit.CapturesNothing
                (plannedUnits (.build .default (taggedNote "Kind")) (taggedNote "Kind"))) := by
  have noErrors : (Check.full .default (taggedNote "Kind")).hasErrors = false := by
    decide +kernel
  have named : ∀ composite ∈ (taggedNote "Kind").composites, NamesTypes composite := by
    unfold NamesTypes
    decide
  have exportsApart :
      ((plannedUnits (.build .default (taggedNote "Kind")) (taggedNote "Kind")).map
        SchemaUnit.exportName).Nodup := by
    decide +kernel
  exact ⟨noErrors, named, exportsApart,
    modules_bind_apart_iff_capturesNothing "/" .default (taggedNote "Kind") noErrors named
      exportsApart⟩

/-- Nothing is found in the document and its units export different symbols, but the module of the
composite imports a symbol and defines a constant of the same name. -/
theorem not_nodup_boundNames_taggedNote :
    Check.full .default (taggedNote "literal") = [] ∧
      ((plannedUnits (.build .default (taggedNote "literal")) (taggedNote "literal")).map
        SchemaUnit.exportName).Nodup ∧
      ∃ files content,
        compile "/" .default (taggedNote "literal") = .ok files ∧
          files.lookup "objects/NoteFilter.schema.ts" = some content ∧
          BindsInTurn
            ["z", "Prisma", "literalSchema", "literalSchema", "jsonSchema", "Schema",
              "NoteFilterObjectSchema"]
            content := by
  have known : UsedModelsKnown (taggedNote "literal") :=
    List.forall_mem_nil _
  have pathsApart :
      ((plannedUnits (.build .default (taggedNote "literal")) (taggedNote "literal")).map
        SchemaUnit.path).Nodup := by
    decide +kernel
  obtain ⟨unit, planned, isPath, names⟩ :
      ∃ unit ∈ plannedUnits (.build .default (taggedNote "literal")) (taggedNote "literal"),
        unit.path = "objects/NoteFilter.schema.ts" ∧
          unit.boundNames =
            ["z", "Prisma", "literalSchema", "literalSchema", "jsonSchema", "Schema",
              "NoteFilterObjectSchema"] := by
    decide +kernel
  refine ⟨by decide +kernel, by decide +kernel, _,
    unit.text "/" (.build .default (taggedNote "literal")), compile_eq_ok_iff.mpr ⟨known, rfl⟩,
    ?_, ?_⟩
  · rw [← isPath]
    exact lookup_text_of_planned "/" pathsApart planned
  · rw [← names]
    exact bindsInTurn_text "/" planned

end Assembly

end ZodSchemas
