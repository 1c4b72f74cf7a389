import Mathlib.Data.List.Forall2
import ZodSchemas.Proofs.OperationArguments
import ZodSchemas.Proofs.PlannedUnits

namespace ZodSchemas

/-!
# Rendering of plans

Only foreign expressions have no text, and no planned unit contains one.  So a
document whose mapped models are known compiles: each planned unit and the index
are rendered, and the files are collected by their paths.
-/

namespace Expr

/-- An expression has a text at every nesting level. -/
def Renders (expr : Expr) : Prop :=
  ∀ level, ∃ text, expr.render level = .ok text

theorem renders_primitive (code : String) : (Expr.primitive code).Renders :=
  fun _ => ⟨_, rfl⟩

theorem renders_json : Expr.json.Renders :=
  fun _ => ⟨_, rfl⟩

theorem renders_reference (target : Reference) : (Expr.reference target).Renders :=
  fun _ => ⟨_, rfl⟩

theorem renders_enumeration (values : List String) : (Expr.enumeration values).Renders :=
  fun _ => ⟨_, rfl⟩

/-- An expression whose text is put around the one of its inner expression has a text together with
it. -/
theorem renders_iff_of_wrap
    {inner outer : Expr}
    {wrap : String → String}
    (wraps : ∀ level, outer.render level = (inner.render level).map wrap) :
    outer.Renders ↔ inner.Renders := by
  refine forall_congr' fun level => ?_
  rw [wraps level]
  cases inner.render level with
  | error error =>
      exact ⟨nofun, nofun⟩
  | ok text =>
      exact ⟨fun _ => ⟨_, rfl⟩, fun _ => ⟨_, rfl⟩⟩

theorem renders_deferred
    {inner : Expr}
    {hostType : Option String} :
    (Expr.deferred inner hostType).Renders ↔ inner.Renders :=
  renders_iff_of_wrap fun _ => rfl

theorem renders_array
    {inner : Expr} :
    (Expr.array inner).Renders ↔ inner.Renders :=
  renders_iff_of_wrap fun _ => rfl

theorem renders_optional
    {inner : Expr} :
    (Expr.optional inner).Renders ↔ inner.Renders :=
  renders_iff_of_wrap fun _ => rfl

theorem renders_nullable
    {inner : Expr} :
    (Expr.nullable inner).Renders ↔ inner.Renders :=
  renders_iff_of_wrap fun _ => rfl

theorem renders_union
    {members : List Expr}
    (renders : ∀ member ∈ members, member.Renders) :
    (Expr.union members).Renders := by
  intro level
  have texts : ∃ texts, renderAll level members = .ok texts := by
    induction members with
    | nil =>
        exact ⟨_, rfl⟩
    | cons first rest inductionHypothesis =>
        rw [List.forall_mem_cons] at renders
        obtain ⟨text, isText⟩ := renders.1 level
        obtain ⟨texts, areTexts⟩ := inductionHypothesis renders.2
        exact ⟨_, by rw [renderAll, isText, areTexts]; rfl⟩
  obtain ⟨texts, areTexts⟩ := texts
  exact ⟨_, by rw [render, areTexts]; rfl⟩

theorem renders_object
    {fields : List (String × Expr)}
    (renders : ∀ field ∈ fields, field.2.Renders)
    (strict : Bool) :
    (Expr.object fields strict).Renders := by
  intro level
  have lines : ∃ lines, renderFields level fields = .ok lines := by
    induction fields with
    | nil =>
        exact ⟨_, rfl⟩
    | cons first rest inductionHypothesis =>
        rw [List.forall_mem_cons] at renders
        obtain ⟨text, isText⟩ := renders.1 (level + 1)
        obtain ⟨lines, areLines⟩ := inductionHypothesis renders.2
        exact ⟨_, by rw [renderFields, isText, areLines]; rfl⟩
  obtain ⟨lines, areLines⟩ := lines
  exact ⟨_, by rw [render, areLines]; rfl⟩

theorem Renders.stripOptional
    {expr : Expr}
    (renders : expr.Renders) :
    expr.stripOptional.Renders := by
  induction expr using stripOptional.induct with
  | case1 inner inductionHypothesis =>
      rw [Expr.stripOptional]
      exact inductionHypothesis (renders_optional.mp renders)
  | case2 expr notOptional =>
      rwa [stripOptional.eq_2 expr notOptional]

theorem Plain.renders
    {expr : Expr}
    (plain : expr.Plain) :
    expr.Renders := by
  induction plain with
  | primitive code =>
      exact renders_primitive code
  | reference =>
      exact renders_reference _
  | deferred plain inductionHypothesis =>
      exact renders_deferred.mpr inductionHypothesis
  | array plain inductionHypothesis =>
      exact renders_array.mpr inductionHypothesis
  | optional plain inductionHypothesis =>
      exact renders_optional.mpr inductionHypothesis
  | union plain inductionHypothesis =>
      exact renders_union inductionHypothesis

end Expr

namespace Assembly

open Metadata

theorem renders_wrapped
    {base : Expr}
    (renders : base.Renders)
    (field : InputField)
    (alternative : TypeAlternative) :
    (wrapped field alternative base).Renders := by
  have listed : (if alternative.isList then base.array else base).Renders := by
    split
    · exact Expr.renders_array.mpr renders
    · exact renders
  unfold wrapped
  dsimp only
  split
  · exact listed
  · exact Expr.renders_optional.mpr listed

/-- Every validator of a field's alternative has a text. -/
theorem renders_of_alternative?
    {context : Context}
    {owner : String}
    {field : InputField}
    {alternative : TypeAlternative}
    {validator : Expr}
    (isValidator : alternative? context owner field alternative = some validator) :
    validator.Renders := by
  unfold alternative? at isValidator
  split at isValidator
  · obtain ⟨base, scalar, rfl⟩ := Option.map_eq_some_iff.mp isValidator
    refine renders_wrapped ?_ field alternative
    unfold scalar? at scalar
    split at scalar
    · cases scalar
      exact Expr.renders_json
    · obtain ⟨code, -, rfl⟩ := Option.map_eq_some_iff.mp scalar
      exact Expr.renders_primitive code
  · obtain ⟨base, refers, rfl⟩ := Option.map_eq_some_iff.mp isValidator
    refine renders_wrapped ?_ field alternative
    obtain ⟨kind, -, rfl⟩ := Option.map_eq_some_iff.mp refers
    cases kind with
    | enumeration | operation =>
        exact Expr.renders_reference _
    | object =>
        simp only [compositeReference]
        split
        · exact Expr.renders_deferred.mpr (Expr.renders_reference _)
        · exact Expr.renders_reference _

/-- A field whose alternatives have texts has one. -/
theorem renders_of_combined?
    {field : InputField}
    {alternatives : List Expr}
    (renders : ∀ alternative ∈ alternatives, alternative.Renders)
    {joined : Expr}
    (combined : combined? field alternatives = some joined) :
    joined.Renders := by
  have unwrapped (base : Option Expr)
      (plain : ∀ expr, base = some expr → expr.Renders)
      (isJoined :
        (if field.isNullable then base.map .nullable else base) = some joined) :
      joined.Renders := by
    split at isJoined
    · obtain ⟨expr, found, rfl⟩ := Option.map_eq_some_iff.mp isJoined
      exact Expr.renders_nullable.mpr (plain expr found)
    · exact plain joined isJoined
  refine unwrapped _ ?_ combined
  intro expr found
  split at found
  · contradiction
  · cases found
    exact renders expr (.head _)
  · cases found
    have union :
        (Expr.union (alternatives.map Expr.stripOptional)).Renders := by
      refine Expr.renders_union fun member inMembers => ?_
      obtain ⟨alternative, inAlternatives, rfl⟩ := List.mem_map.mp inMembers
      exact (renders alternative inAlternatives).stripOptional
    unfold unionOf
    dsimp only
    split
    · exact union
    · exact Expr.renders_optional.mpr union

theorem renders_of_mem_compositeFields
    {context : Context}
    {composite : Composite} :
    ∀ entry ∈ compositeFields context composite, entry.2.Renders := by
  intro entry member
  obtain ⟨field, -, isEntry⟩ := List.mem_filterMap.mp member
  obtain ⟨joined, combined, rfl⟩ := Option.map_eq_some_iff.mp isEntry
  refine renders_of_combined? ?_ combined
  intro validator inValidators
  obtain ⟨alternative, -, isValidator⟩ := List.mem_filterMap.mp inValidators
  exact renders_of_alternative? isValidator

/-- Every planned unit has an expression with a text. -/
theorem exists_expression_of_planned
    {context : Context}
    {document : Document}
    {unit : SchemaUnit}
    (planned : unit ∈ plannedUnits context document) :
    ∃ expression, unit.expression = some expression ∧ expression.Renders := by
  cases mem_plannedUnits.mp planned with
  | enumeration declared =>
      exact ⟨_, rfl, Expr.renders_enumeration _⟩
  | composite merged =>
      exact ⟨_, rfl, Expr.renders_object renders_of_mem_compositeFields true⟩
  | operation first known supported =>
      refine ⟨_, rfl, Expr.renders_object (fun argument member => ?_) false⟩
      exact (plainFields_arguments _ _ _ _ argument member).renders

theorem kind_ne_index_of_planned
    {context : Context}
    {document : Document}
    {unit : SchemaUnit}
    (planned : unit ∈ plannedUnits context document) :
    unit.kind ≠ .index := by
  cases mem_plannedUnits.mp planned <;> nofun

/-- A planned unit is rendered to its path, with the lines of its module around the text of its
expression. -/
theorem render_of_planned
    (workingDirectory : String)
    {context : Context}
    {document : Document}
    {unit : SchemaUnit}
    (planned : unit ∈ plannedUnits context document) :
    ∃ body,
      unit.render workingDirectory context =
        .ok ⟨unit.path, joinLines (unit.moduleLines workingDirectory context body)⟩ := by
  obtain ⟨expression, isExpression, renders⟩ := exists_expression_of_planned planned
  obtain ⟨body, isBody⟩ := renders 0
  have noIndex := kind_ne_index_of_planned planned
  refine ⟨body, ?_⟩
  rw [SchemaUnit.render, if_neg noIndex, SchemaUnit.renderModule, if_neg noIndex, isExpression]
  simp only [isBody]

theorem render_path
    {workingDirectory : String}
    {context : Context}
    {document : Document}
    {unit : SchemaUnit}
    (member : unit ∈ withIndex (plannedUnits context document)) :
    ∃ content, unit.render workingDirectory context = .ok ⟨unit.path, content⟩ := by
  rcases List.mem_append.mp member with planned | isIndex
  · obtain ⟨body, rendered⟩ := render_of_planned workingDirectory planned
    exact ⟨_, rendered⟩
  · obtain rfl := List.mem_singleton.mp isIndex
    exact ⟨_, rfl⟩

/-- Where a step succeeds on every item, the steps yield a result for each. -/
theorem mapM_of_forall_ok
    {step : β → Except ε γ}
    {items : List β}
    (succeeds : ∀ item ∈ items, ∃ result, step item = .ok result) :
    ∃ results,
      items.mapM step = .ok results ∧
        List.Forall₂ (fun item result => step item = .ok result) items results := by
  induction items with
  | nil =>
      exact ⟨[], rfl, .nil⟩
  | cons item rest inductionHypothesis =>
      rw [List.forall_mem_cons] at succeeds
      obtain ⟨result, atItem⟩ := succeeds.1
      obtain ⟨results, atRest, eachRest⟩ := inductionHypothesis succeeds.2
      refine ⟨result :: results, ?_, .cons atItem eachRest⟩
      rw [List.mapM_cons, atItem, atRest]
      rfl

/-- Files are what units are rendered to, in the order of the units. -/
def RenderedFrom
    (workingDirectory : String)
    (context : Context)
    (units : List SchemaUnit)
    (files : List RenderedFile) :
    Prop :=
  List.Forall₂ (fun unit file => unit.render workingDirectory context = .ok file) units files

/-- A document whose used models are known compiles to the rendered files of its planned units and
their index, collected by path. -/
theorem compile_of_usedModelsKnown
    (workingDirectory : String)
    (settings : Settings)
    {document : Document}
    (known : UsedModelsKnown document) :
    ∃ files,
      compile workingDirectory settings document = .ok (contentsByPath files) ∧
        RenderedFrom workingDirectory (.build settings document)
          (withIndex (plannedUnits (.build settings document) document)) files := by
  have succeeds :
      ∀ unit ∈ withIndex (plannedUnits (.build settings document) document),
        ∃ file, unit.render workingDirectory (.build settings document) = .ok file :=
    fun unit member =>
      have ⟨_, rendered⟩ := render_path member
      ⟨_, rendered⟩
  obtain ⟨files, areFiles, each⟩ := mapM_of_forall_ok succeeds
  refine ⟨files, ?_, each⟩
  rw [compile]
  simp only [assemble_plan_of_usedModelsKnown known, List.isEmpty_nil, ↓reduceIte, areFiles]

theorem compile_of_known
    (workingDirectory : String)
    (settings : Settings)
    {document : Document}
    (known :
      ∀ mapping ∈ firstMappings document.mappings,
        ∃ model, document.model? mapping.model = some model) :
    ∃ files,
      compile workingDirectory settings document = .ok (contentsByPath files) ∧
        RenderedFrom workingDirectory (.build settings document)
          (withIndex (plannedUnits (.build settings document) document)) files :=
  compile_of_usedModelsKnown workingDirectory settings fun mapping first _ => known mapping first

theorem path_of_render
    {workingDirectory : String}
    {context : Context}
    {unit : SchemaUnit}
    {file : RenderedFile}
    (rendered : unit.render workingDirectory context = .ok file) :
    file.path = unit.path := by
  unfold SchemaUnit.render at rendered
  split at rendered
  · rename_i isIndex
    rw [SchemaUnit.renderIndex, if_pos isIndex] at rendered
    cases rendered
    rw [SchemaUnit.path, SchemaUnit.stem, isIndex]
    rfl
  · rename_i noIndex
    rw [SchemaUnit.renderModule, if_neg noIndex] at rendered
    split at rendered
    · contradiction
    · split at rendered
      · contradiction
      · cases rendered
        rfl

/-- The files of rendered units stand at the paths of the units, in the same order. -/
theorem map_path_of_rendered
    {workingDirectory : String}
    {context : Context}
    {units : List SchemaUnit}
    {files : List RenderedFile}
    (rendered : RenderedFrom workingDirectory context units files) :
    files.map RenderedFile.path = units.map SchemaUnit.path := by
  induction rendered with
  | nil =>
      rfl
  | cons atUnit _ inductionHypothesis =>
      rw [List.map_cons, List.map_cons, path_of_render atUnit, inductionHypothesis]

end Assembly

end ZodSchemas
