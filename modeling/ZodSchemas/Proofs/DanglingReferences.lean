import ZodSchemas.Proofs.PlannedUnits
import ZodSchemas.Proofs.StructuralChecks
import ZodSchemas.Proofs.Traversals

namespace ZodSchemas

/-!
# Dangling references

A reference dangles when it occurs in a unit and no unit answers to it.  The
check of references reports exactly what dangles among the units that it assumes
to be generated, which are the planned ones and those of superseded mappings: a
model may be mapped several times, and only its first mapping is planned.  The
report is about the planned units as long as superseded units neither answer to
a reference that no planned unit answers to nor refer to something missing that
no planned unit refers to.
-/

open Data

namespace Assembly

open Metadata

/-- Some unit answers to a reference. -/
def Generates (units : List SchemaUnit) (reference : Reference) : Prop :=
  ∃ unit ∈ units, unit.asReference? = some reference

/-- A symbol is referred to, and no unit answers to the reference. -/
def Dangles (units : List SchemaUnit) (symbol : String) : Prop :=
  ∃ unit ∈ units, ∃ reference ∈ unit.occurring,
    reference.symbol = symbol ∧ ¬ Generates units reference

/-- The units that the check of references assumes to be generated. -/
def assumedUnits (context : Context) (document : Document) : List SchemaUnit :=
  document.enums.map enumUnit ++ Check.referringUnits context document

/-- An operation that is listed for its model, but not by a mapping that is planned. -/
inductive Superseded (context : Context) (document : Document) : SchemaUnit → Prop where
  | operation
      {mapping : OperationMapping}
      {model : Model}
      {operation : Operation}
      (listed : mapping ∈ document.mappings)
      (known : document.model? mapping.model = some model)
      (supported : mapping.supports operation = true)
      (unplanned :
        operationUnit context document model operation ∉ plannedUnits context document) :
      Superseded context document (operationUnit context document model operation)

theorem mem_assumedUnits_of_planned
    {context : Context}
    {document : Document}
    {unit : SchemaUnit}
    (planned : unit ∈ plannedUnits context document) :
    unit ∈ assumedUnits context document := by
  rw [plannedUnits_eq, List.append_assoc] at planned
  rw [assumedUnits, Check.referringUnits]
  refine List.mem_append.mpr ((List.mem_append.mp planned).imp_right fun later => ?_)
  refine List.mem_append.mpr ((List.mem_append.mp later).imp_right fun inMappings => ?_)
  obtain ⟨mapping, first, inMapping⟩ := List.mem_flatMap.mp inMappings
  exact List.mem_flatMap.mpr ⟨mapping, mem_of_mem_firstMappings first, inMapping⟩

/-- The units that are assumed to be generated are the planned and the superseded ones. -/
theorem mem_assumedUnits
    {context : Context}
    {document : Document}
    {unit : SchemaUnit} :
    unit ∈ assumedUnits context document ↔
      unit ∈ plannedUnits context document ∨ Superseded context document unit := by
  constructor
  · intro assumed
    by_cases planned : unit ∈ plannedUnits context document
    · exact .inl planned
    · right
      rw [assumedUnits, Check.referringUnits, List.mem_append, List.mem_append,
        List.mem_flatMap] at assumed
      rcases assumed with inEnums | inComposites | ⟨mapping, listed, inMapping⟩
      · obtain ⟨enumType, declared, rfl⟩ := List.mem_map.mp inEnums
        exact (planned (mem_plannedUnits.mpr (.enumeration declared))).elim
      · obtain ⟨composite, merged, rfl⟩ := List.mem_map.mp inComposites
        exact (planned (mem_plannedUnits.mpr (.composite merged))).elim
      · obtain ⟨model, known, operation, supported, rfl⟩ := mem_mappingUnits.mp inMapping
        exact .operation listed known supported planned
  · rintro (planned | superseded)
    · exact mem_assumedUnits_of_planned planned
    · cases superseded with
      | operation listed known supported unplanned =>
          rw [assumedUnits, Check.referringUnits, List.mem_append, List.mem_append,
            List.mem_flatMap]
          exact .inr (.inr ⟨_, listed, mem_mappingUnits.mpr ⟨_, known, _, supported, rfl⟩⟩)

theorem not_superseded
    {context : Context}
    {document : Document}
    (mappedOnce : (document.mappings.map (·.model)).Nodup)
    (unit : SchemaUnit) :
    ¬ Superseded context document unit := by
  intro superseded
  cases superseded with
  | operation listed known supported unplanned =>
      rw [← firstMappings_eq_self mappedOnce] at listed
      exact unplanned (mem_plannedUnits.mpr (.operation listed known supported))

/-- What a planned unit takes from superseded units alone dangles among the assumed units for
another reason. -/
def SupersededHideNothing (context : Context) (document : Document) : Prop :=
  ∀ unit ∈ plannedUnits context document, ∀ reference ∈ unit.occurring,
    (∃ target, Superseded context document target ∧ target.asReference? = some reference) →
      ¬ Generates (plannedUnits context document) reference →
        Dangles (assumedUnits context document) reference.symbol

/-- What is missing in a superseded unit is missing in a planned one. -/
def SupersededAddNothing (context : Context) (document : Document) : Prop :=
  ∀ unit, Superseded context document unit → ∀ reference ∈ unit.occurring,
    ¬ Generates (assumedUnits context document) reference →
      Dangles (plannedUnits context document) reference.symbol

theorem generates_assumedUnits
    {context : Context}
    {document : Document}
    {reference : Reference}
    (generated : Generates (plannedUnits context document) reference) :
    Generates (assumedUnits context document) reference := by
  obtain ⟨unit, planned, answers⟩ := generated
  exact ⟨unit, mem_assumedUnits_of_planned planned, answers⟩

/-- The same symbols dangle among the assumed and the planned units exactly when superseded units
neither hide nor add any. -/
theorem dangles_assumedUnits_iff
    {context : Context}
    {document : Document} :
    (∀ symbol,
        Dangles (assumedUnits context document) symbol ↔
          Dangles (plannedUnits context document) symbol) ↔
      SupersededHideNothing context document ∧ SupersededAddNothing context document := by
  constructor
  · intro agree
    constructor
    · intro unit planned reference occurs _ missing
      exact (agree _).mpr ⟨unit, planned, reference, occurs, rfl, missing⟩
    · intro unit superseded reference occurs missing
      exact (agree _).mp
        ⟨unit, mem_assumedUnits.mpr (.inr superseded), reference, occurs, rfl, missing⟩
  · rintro ⟨hideNothing, addNothing⟩ symbol
    constructor
    · rintro ⟨unit, assumed, reference, occurs, rfl, missing⟩
      rcases mem_assumedUnits.mp assumed with planned | superseded
      · exact ⟨unit, planned, reference, occurs, rfl,
          fun generated => missing (generates_assumedUnits generated)⟩
      · exact addNothing unit superseded reference occurs missing
    · rintro ⟨unit, planned, reference, occurs, rfl, missing⟩
      by_cases generated : Generates (assumedUnits context document) reference
      · -- Only a superseded unit answers to what no planned unit answers to.
        obtain ⟨target, assumed, answers⟩ := generated
        have superseded : Superseded context document target :=
          (mem_assumedUnits.mp assumed).resolve_left fun targetPlanned =>
            missing ⟨target, targetPlanned, answers⟩
        exact hideNothing unit planned reference occurs ⟨target, superseded, answers⟩ missing
      · exact ⟨unit, mem_assumedUnits_of_planned planned, reference, occurs, rfl, generated⟩

end Assembly

namespace Check

open ZodSchemas.Metadata Assembly

/-- Some finding warns that a symbol is not generated. -/
def Reports (findings : Findings) (symbol : String) : Prop :=
  ∃ finding ∈ findings,
    finding.code = "UNRESOLVED_REFERENCE" ∧
      (.text "reference", .text symbol) ∈ finding.details

theorem symbol_of_missingFinding
    {unit : SchemaUnit}
    {reference : Reference}
    {symbol : String} :
    (.text "reference", .text symbol) ∈ (missingFinding unit reference).details ↔
      reference.symbol = symbol := by
  simp [missingFinding, Finding.warning, Finding.make, Value.text, eq_comm]

/-- Of several references with one symbol the first one is kept, unless the symbol has been
reported. -/
theorem exists_mem_firstMissing
    {reported : List String}
    {missing : List (SchemaUnit × Reference)}
    {symbol : String} :
    (∃ entry ∈ firstMissing reported missing, entry.2.symbol = symbol) ↔
      symbol ∉ reported ∧ ∃ entry ∈ missing, entry.2.symbol = symbol := by
  -- Each symbol that is kept is a reported one for the rest of the list.
  induction missing generalizing reported with
  | nil =>
      simp [firstMissing]
  | cons head rest inductionHypothesis =>
      unfold firstMissing
      by_cases known : reported.contains head.2.symbol = true
      · have isReported := List.contains_iff_mem.mp known
        rw [if_pos known, inductionHypothesis]
        simp only [List.mem_cons, or_and_right, exists_or, exists_eq_left]
        constructor
        · rintro ⟨fresh, later⟩
          exact ⟨fresh, .inr later⟩
        · rintro ⟨fresh, rfl | later⟩
          · contradiction
          · exact ⟨fresh, later⟩
      · have isFresh : head.2.symbol ∉ reported := mt List.contains_iff_mem.mpr known
        rw [if_neg known]
        simp only [List.mem_cons, or_and_right, exists_or, exists_eq_left, inductionHypothesis,
          not_or]
        constructor
        · rintro (rfl | ⟨⟨-, fresh⟩, later⟩)
          · exact ⟨isFresh, .inl rfl⟩
          · exact ⟨fresh, .inr later⟩
        · rintro ⟨fresh, rfl | later⟩
          · exact .inl rfl
          · by_cases same : head.2.symbol = symbol
            · exact .inl same
            · exact .inr ⟨⟨Ne.symm same, fresh⟩, later⟩

theorem mem_missingReferences
    {generated : List Reference}
    {units : List SchemaUnit}
    {unit : SchemaUnit}
    {reference : Reference} :
    (unit, reference) ∈ missingReferences generated units ↔
      unit ∈ units ∧ reference ∈ unit.occurring ∧ reference ∉ generated := by
  simp [missingReferences, SchemaUnit.occurring]

/-- A unit whose references are checked answers to the reference that is taken for generated. -/
theorem asReference?_of_referringUnits
    {context : Context}
    {document : Document}
    {unit : SchemaUnit}
    (member : unit ∈ referringUnits context document) :
    unit.asReference? =
      some ⟨unit.name, if unit.kind = .object then .object else .operation⟩ := by
  rw [referringUnits, List.mem_append, List.mem_flatMap] at member
  rcases member with inComposites | ⟨mapping, -, inMapping⟩
  · obtain ⟨composite, -, rfl⟩ := List.mem_map.mp inComposites
    rfl
  · obtain ⟨model, -, operation, -, rfl⟩ := mem_mappingUnits.mp inMapping
    rfl

theorem mem_generatedReferences
    {context : Context}
    {document : Document}
    {reference : Reference} :
    reference ∈ generatedReferences document (referringUnits context document) ↔
      Generates (assumedUnits context document) reference := by
  rw [generatedReferences, List.mem_append, Generates, assumedUnits]
  simp only [List.mem_append, or_and_right, exists_or]
  apply or_congr
  · simp only [Document.enumNames, List.mem_map, exists_exists_and_eq_and,
      asReference?_enumUnit, Option.some.injEq]
  · rw [List.mem_map]
    refine exists_congr fun unit => and_congr_right fun member => ?_
    rw [asReference?_of_referringUnits member, Option.some.injEq]

theorem reports_missingFindings
    {missing : List (SchemaUnit × Reference)}
    {symbol : String} :
    Reports (missing.map fun entry => missingFinding entry.1 entry.2) symbol ↔
      ∃ entry ∈ missing, entry.2.symbol = symbol := by
  simp only [Reports, List.mem_map, exists_exists_and_eq_and, symbol_of_missingFinding]
  exact exists_congr fun entry => and_congr_right fun _ => and_iff_right rfl

theorem occurring_enumUnit
    (enumType : EnumType) :
    (enumUnit enumType).occurring = [] :=
  Expr.references_enumeration enumType.values

/-- The check of references reports what dangles among the assumed units. -/
theorem reports_references_iff
    {settings : Settings}
    {document : Document}
    {symbol : String} :
    Reports (references settings document) symbol ↔
      Dangles (assumedUnits (Context.build settings document) document) symbol := by
  rw [references, reports_missingFindings, exists_mem_firstMissing,
    and_iff_right List.not_mem_nil]
  constructor
  · rintro ⟨⟨unit, reference⟩, member, rfl⟩
    obtain ⟨inUnits, occurs, notGenerated⟩ := mem_missingReferences.mp member
    exact ⟨unit, List.mem_append_right _ inUnits, reference, occurs, rfl,
      mt mem_generatedReferences.mpr notGenerated⟩
  · rintro ⟨unit, assumed, reference, occurs, rfl, notGenerated⟩
    rcases List.mem_append.mp assumed with inEnums | inUnits
    · obtain ⟨enumType, -, rfl⟩ := List.mem_map.mp inEnums
      rw [occurring_enumUnit] at occurs
      contradiction
    · exact ⟨(unit, reference),
        mem_missingReferences.mpr
          ⟨inUnits, occurs, mt mem_generatedReferences.mp notGenerated⟩, rfl⟩

/-- The check of references reports the symbols that dangle among some units, and no others. -/
def ReportsDangling (settings : Settings) (document : Document) (units : List SchemaUnit) : Prop :=
  ∀ symbol, Reports (references settings document) symbol ↔ Dangles units symbol

/-- The planner succeeds on a document without errors, and the check of references reports what
dangles among the planned units when every mapping belongs to another model, and otherwise exactly
when superseded units neither hide nor add a symbol. -/
theorem reports_dangling_iff_superseded_silent
    (settings : Settings)
    (document : Document)
    (noErrors :
      Findings.hasErrors (metadata document ++ Check.settings settings document) = false) :
    ∃ assembled,
      assemble (plan (Context.build settings document) document) = .ok assembled ∧
        assembled.failures = [] ∧
        ((document.mappings.map (·.model)).Nodup →
          ReportsDangling settings document assembled.units) ∧
        (ReportsDangling settings document assembled.units ↔
          SupersededHideNothing (Context.build settings document) document ∧
            SupersededAddNothing (Context.build settings document) document) := by
  have sound := sound_of_metadata (Findings.hasErrors_append_eq_false_iff.mp noErrors).1
  have agreement :
      ReportsDangling settings document
          (plannedUnits (Context.build settings document) document) ↔
        SupersededHideNothing (Context.build settings document) document ∧
          SupersededAddNothing (Context.build settings document) document := by
    simp only [ReportsDangling, reports_references_iff]
    exact dangles_assumedUnits_iff
  refine ⟨_, assemble_plan sound.firstMappedModelsKnown, rfl, ?_, agreement⟩
  intro mappedOnce
  have nothingSuperseded (unit : SchemaUnit) :
      ¬ Superseded (Context.build settings document) document unit :=
    not_superseded mappedOnce unit
  refine agreement.mpr ⟨?_, ?_⟩
  · rintro unit planned reference occurs ⟨target, superseded, -⟩
    exact (nothingSuperseded target superseded).elim
  · intro unit superseded
    exact (nothingSuperseded unit superseded).elim

/-- A model whose bulk query is listed by its second mapping only, and a composite that takes
it. -/
def laterBulkQuery : Document where
  provider := .postgresql
  previewFeatures := []
  models := [⟨"Post", [⟨"id", .scalar, "Int", false, true⟩]⟩]
  enums := [⟨"PostScalarFieldEnum", ["id"]⟩]
  composites :=
    [⟨"PostFilter",
        [⟨"id", true, false, [⟨"PostFindManyArgs", false, .inputObjectTypes, some "prisma"⟩]⟩]⟩,
      ⟨"PostWhereUniqueInput", [⟨"id", true, false, [⟨"Int", false, .scalar, none⟩]⟩]⟩,
      ⟨"PostWhereInput", [⟨"id", true, false, [⟨"Int", false, .scalar, none⟩]⟩]⟩,
      ⟨"PostOrderByWithRelationInput", [⟨"id", true, false, [⟨"Int", false, .scalar, none⟩]⟩]⟩]
  mappings := [⟨"Post", [.findUnique], []⟩, ⟨"Post", [.findMany], []⟩]
  aggregateSupport := none

theorem reports_dangling_iff_laterBulkQuery :
    Findings.hasErrors (metadata laterBulkQuery ++ Check.settings .default laterBulkQuery) =
        false ∧
      ∃ assembled,
        assemble (plan (.build .default laterBulkQuery) laterBulkQuery) = .ok assembled ∧
          assembled.failures = [] ∧
          ((laterBulkQuery.mappings.map (·.model)).Nodup →
            ReportsDangling .default laterBulkQuery assembled.units) ∧
          (ReportsDangling .default laterBulkQuery assembled.units ↔
            SupersededHideNothing (.build .default laterBulkQuery) laterBulkQuery ∧
              SupersededAddNothing (.build .default laterBulkQuery) laterBulkQuery) := by
  have noErrors :
      Findings.hasErrors (metadata laterBulkQuery ++ Check.settings .default laterBulkQuery) =
        false := by
    decide +kernel
  exact ⟨noErrors, reports_dangling_iff_superseded_silent .default laterBulkQuery noErrors⟩

/-- Nothing is reported, but the bulk query that a composite takes is not planned. -/
theorem not_reportsDangling_laterBulkQuery :
    Findings.hasErrors (metadata laterBulkQuery ++ Check.settings .default laterBulkQuery) =
        false ∧
      references .default laterBulkQuery = [] ∧
      ∃ assembled,
        assemble (plan (.build .default laterBulkQuery) laterBulkQuery) = .ok assembled ∧
          Dangles assembled.units "PostFindManySchema" ∧
          ¬ ReportsDangling .default laterBulkQuery assembled.units := by
  have nothingReported : references .default laterBulkQuery = [] := by
    decide +kernel
  have dangles :
      Dangles (plannedUnits (.build .default laterBulkQuery) laterBulkQuery)
        "PostFindManySchema" := by
    have planned :
        ∃ unit ∈ plannedUnits (.build .default laterBulkQuery) laterBulkQuery,
          (⟨"PostFindMany", .operation⟩ : Reference) ∈ unit.occurring := by
      decide +kernel
    obtain ⟨unit, member, occurs⟩ := planned
    refine ⟨unit, member, _, occurs, rfl, ?_⟩
    unfold Generates
    decide +kernel
  refine ⟨by decide +kernel, nothingReported, _, assemble_plan ?_, dangles, ?_⟩
  · simp [laterBulkQuery, firstMappings, Document.model?]
  · intro agrees
    obtain ⟨finding, member, -⟩ := (agrees "PostFindManySchema").mpr dangles
    rw [nothingReported] at member
    contradiction

end Check

end ZodSchemas
