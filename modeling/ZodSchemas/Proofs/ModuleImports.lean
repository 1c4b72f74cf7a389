import Mathlib.Data.List.Pairwise
import ZodSchemas.Proofs.Rendering
import ZodSchemas.Proofs.WrittenText

namespace ZodSchemas

/-!
# Imports of written modules

A module imports each symbol that its body mentions once, in the order of the
first mentions, and not the symbol that it defines itself.  The shared validator
for arbitrary JSON is defined where the body mentions it.  The host's namespace
is imported wherever the module mentions it.  It is also imported for an object
whose host type has no name, whose definition is left without an annotation.
-/

namespace Expr

theorem mem_firstOccurrences
    [DecidableEq α]
    {item : α}
    {items : List α} :
    item ∈ firstOccurrences items ↔ item ∈ items := by
  induction items with
  | nil =>
      rfl
  | cons first rest inductionHypothesis =>
      by_cases same : item = first <;>
        simp [firstOccurrences, inductionHypothesis, same]

/-- First occurrences of symbols follow the order of the pieces that mention them. -/
theorem pairwise_firstOccurrences
    (body : List Piece) :
    (firstOccurrences (body.filterMap Piece.symbol?)).Pairwise fun earlier later =>
      body.idxOf (.symbol earlier) < body.idxOf (.symbol later) := by
  induction body with
  | nil =>
      exact .nil
  | cons first rest inductionHypothesis =>
      have shift {reference : Reference} (other : first ≠ .symbol reference) :
          (first :: rest).idxOf (.symbol reference) = rest.idxOf (.symbol reference) + 1 :=
        List.idxOf_cons_ne rest other
      cases isSymbol : first.symbol? with
      | none =>
          have other (reference : Reference) : first ≠ .symbol reference := by
            rintro rfl
            contradiction
          rw [List.filterMap_cons_none isSymbol]
          refine inductionHypothesis.imp fun {earlier later} before => ?_
          rw [shift (other earlier), shift (other later)]
          exact Nat.succ_lt_succ before
      | some mentioned =>
          obtain rfl : first = .symbol mentioned := by
            cases first <;> cases isSymbol
            rfl
          rw [List.filterMap_cons_some isSymbol, firstOccurrences, List.pairwise_cons]
          have other {reference : Reference}
              (member :
                reference ∈
                  (firstOccurrences (rest.filterMap Piece.symbol?)).filter (· ≠ mentioned)) :
              Piece.symbol mentioned ≠ .symbol reference := by
            have different := (List.mem_filter.mp member).2
            rintro ⟨rfl⟩
            simp at different
          constructor
          · intro reference member
            rw [List.idxOf_cons_self, shift (other member)]
            exact Nat.succ_pos _
          · refine (inductionHypothesis.filter _).imp_of_mem
              fun {earlier later} inEarlier inLater before => ?_
            rw [shift (other inEarlier), shift (other inLater)]
            exact Nat.succ_lt_succ before

end Expr

namespace SchemaUnit

/-- The import of the host's namespace. -/
def hostImport (workingDirectory : String) (context : Context) (unit : SchemaUnit) : Import :=
  ⟨"Prisma", unit.hostModule workingDirectory context, true⟩

/-- The pieces of the type annotation of an object's definition. -/
def annotationPieces (unit : SchemaUnit) : List Piece :=
  match unit.hostType with
  | some name =>
      if name.isEmpty then [] else [.plain ": z.ZodType<", .hostType name, .plain ">"]
  | none => []

/-- The pieces of the lines that define and export a validator with the given body. -/
def definitionPieces (unit : SchemaUnit) (body : List Piece) : List (List Piece) :=
  if unit.kind = .object then
    [[.plain "const Schema"] ++ unit.annotationPieces ++ [.plain " = "] ++ body ++ [.plain ";"], [],
      [.plain ("export const " ++ unit.exportName ++ " = Schema;")]]
  else
    [[.plain ("export const " ++ unit.exportName ++ " = ")] ++ body ++ [.plain ";"]]

end SchemaUnit

/-- The pieces of the lines that define the shared validator for arbitrary JSON. -/
def jsonHelperPieces : List (List Piece) :=
  [
    [.plain "const literalSchema = z.union([z.string(), z.number(), z.boolean()]);"],
    [.plain "const ", .json, .plain ": z.ZodType<", .hostType "InputJsonValue",
      .plain "> = z.lazy(() =>"],
    [.plain (indentation 1 ++ "z.union([")],
    [.plain (indentation 2 ++ "literalSchema,")],
    [.plain (indentation 2 ++ "z.array("), .json, .plain ".nullable()),"],
    [.plain (indentation 2 ++ "z.record(z.string(), "), .json, .plain ".nullable()),"],
    [.plain (indentation 1 ++ "]),")],
    [.plain ");"]
  ]

namespace SchemaUnit

/-- The pieces of the lines of a module with the given body. -/
def modulePieces (workingDirectory : String) (context : Context) (unit : SchemaUnit)
    (body : List Piece) : List (List Piece) :=
  (unit.imports workingDirectory context).map (fun spec => [.plain spec.line]) ++ [[]]
    ++ (if .json ∈ body then jsonHelperPieces ++ [[]] else [])
    ++ unit.definitionPieces body

/-- A module imports what its body mentions: the library, perhaps the namespace of the host, and
each mentioned symbol but its own once, in the order of the first mentions. -/
def ImportsMentioned (workingDirectory : String) (context : Context) (unit : SchemaUnit)
    (body : List Piece) : Prop :=
  ∃ (host : List Import) (imported : List Reference),
    unit.imports workingDirectory context =
      [libraryImport] ++ host ++ imported.map (unit.referenceImport workingDirectory context) ∧
      (host = [] ∨ host = [unit.hostImport workingDirectory context]) ∧
      imported.Nodup ∧
      (∀ reference,
        reference ∈ imported ↔ .symbol reference ∈ body ∧ some reference ≠ unit.selfReference?) ∧
      imported.Pairwise fun earlier later =>
        body.idxOf (.symbol earlier) < body.idxOf (.symbol later)

/-- Whether a line of a module mentions the namespace of the host. -/
def MentionsHost (lines : List (List Piece)) : Prop :=
  ∃ line ∈ lines, ∃ name, .hostType name ∈ line

theorem joinPieces_annotationPieces
    (unit : SchemaUnit) :
    joinPieces unit.annotationPieces = unit.annotationText := by
  unfold annotationPieces annotationText
  cases unit.hostType with
  | none =>
      rfl
  | some name =>
      by_cases unnamed : name.isEmpty <;>
        simp [unnamed, Piece.text, ← String.append_assoc]

theorem map_joinPieces_definitionPieces
    (unit : SchemaUnit)
    (body : List Piece) :
    (unit.definitionPieces body).map joinPieces = unit.definition (joinPieces body) := by
  unfold definitionPieces definition
  split <;>
    simp [joinPieces_annotationPieces, Piece.text, ← String.append_assoc]

theorem map_joinPieces_jsonHelperPieces :
    jsonHelperPieces.map joinPieces = jsonHelper := by
  simp [jsonHelperPieces, jsonHelper, Piece.text, ← String.append_assoc]

/-- The pieces of a module are those of its text. -/
theorem map_joinPieces_modulePieces
    (workingDirectory : String)
    (context : Context)
    {unit : SchemaUnit}
    {body : List Piece}
    (json : .json ∈ body ↔ unit.usesJson = true) :
    (unit.modulePieces workingDirectory context body).map joinPieces =
      unit.moduleLines workingDirectory context (joinPieces body) := by
  have importLines :
      ((unit.imports workingDirectory context).map fun spec => [Piece.plain spec.line]).map
          joinPieces =
        (unit.imports workingDirectory context).map Import.line := by
    simp [Function.comp_def, Piece.text]
  have helper :
      (if .json ∈ body then jsonHelperPieces ++ [[]] else []).map joinPieces =
        if unit.usesJson then jsonHelper ++ [""] else [] := by
    by_cases used : unit.usesJson = true
    · rw [if_pos (json.mpr used), if_pos used, List.map_append, map_joinPieces_jsonHelperPieces]
      rfl
    · rw [if_neg (mt json.mp used), if_neg used]
      rfl
  rw [modulePieces, moduleLines, List.map_append, List.map_append, List.map_append, importLines,
    helper, map_joinPieces_definitionPieces]
  rfl

theorem mem_references
    {unit : SchemaUnit}
    {expression : Expr}
    (isExpression : unit.expression = some expression)
    {reference : Reference} :
    reference ∈ unit.references ↔
      .symbol reference ∈ expression.pieces 0 ∧ some reference ≠ unit.selfReference? := by
  have mentioned :
      reference ∈ expression.references ↔ .symbol reference ∈ expression.pieces 0 := by
    rw [Expr.references, Expr.mem_firstOccurrences, ← Expr.filterMap_symbol?_pieces 0,
      List.mem_filterMap]
    constructor
    · rintro ⟨piece, member, isSymbol⟩
      cases piece <;> cases isSymbol
      exact member
    · intro member
      exact ⟨_, member, rfl⟩
  simp [references, isExpression, mentioned]

/-- The imports of a module are those of what its body mentions. -/
theorem importsMentioned
    (workingDirectory : String)
    (context : Context)
    {unit : SchemaUnit}
    (noIndex : unit.kind ≠ .index)
    {expression : Expr}
    (isExpression : unit.expression = some expression) :
    unit.ImportsMentioned workingDirectory context (expression.pieces 0) := by
  have ordered :
      unit.references.Pairwise fun earlier later =>
        (expression.pieces 0).idxOf (.symbol earlier) <
          (expression.pieces 0).idxOf (.symbol later) := by
    simp only [references, isExpression, Expr.references, ← Expr.filterMap_symbol?_pieces 0]
    exact (Expr.pairwise_firstOccurrences _).filter _
  refine ⟨if unit.needsHostTypes then [unit.hostImport workingDirectory context] else [],
    unit.references, ?_, ?_, ?_, fun _ => mem_references isExpression, ordered⟩
  · rw [imports, if_neg noIndex]
    rfl
  · split
    · exact .inr rfl
    · exact .inl rfl
  · exact ordered.imp fun before => by
      rintro rfl
      exact Nat.lt_irrefl _ before

theorem hostImport_mem_imports
    {workingDirectory : String}
    {context : Context}
    {unit : SchemaUnit}
    (noIndex : unit.kind ≠ .index) :
    unit.hostImport workingDirectory context ∈ unit.imports workingDirectory context ↔
      unit.needsHostTypes = true := by
  -- Every other import is that of a value.
  cases needs : unit.needsHostTypes <;>
    simp [imports, noIndex, needs, hostImport, libraryImport, referenceImport]

theorem mentionsHost_append
    {lines others : List (List Piece)} :
    MentionsHost (lines ++ others) ↔ MentionsHost lines ∨ MentionsHost others := by
  simp only [MentionsHost, List.mem_append, or_and_right, exists_or]

theorem mentionsHost_definitionPieces
    {unit : SchemaUnit}
    {body : List Piece} :
    MentionsHost (unit.definitionPieces body) ↔
      (unit.kind = .object ∧ ∃ name, unit.hostType = some name ∧ name ≠ "") ∨
        ∃ name, .hostType name ∈ body := by
  have annotated :
      (∃ name, .hostType name ∈ unit.annotationPieces) ↔
        ∃ name, unit.hostType = some name ∧ name ≠ "" := by
    unfold annotationPieces
    cases unit.hostType with
    | none =>
        simp
    | some name =>
        by_cases unnamed : name = "" <;> simp [unnamed]
  unfold definitionPieces
  by_cases isObject : unit.kind = .object
  · simp [isObject, MentionsHost, exists_or, annotated]
  · simp [isObject, MentionsHost]

/-- A module mentions the host in an annotation of its definition, in that of a deferred binding, or
in the shared validator for arbitrary JSON. -/
theorem mentionsHost_modulePieces
    {workingDirectory : String}
    {context : Context}
    {unit : SchemaUnit}
    {expression : Expr} :
    MentionsHost (unit.modulePieces workingDirectory context (expression.pieces 0)) ↔
      (unit.kind = .object ∧ ∃ name, unit.hostType = some name ∧ name ≠ "") ∨
        expression.usesJson = true ∨ expression.hasAnnotation = true := by
  have importLines :
      ¬ MentionsHost
        ((unit.imports workingDirectory context).map (fun spec => [Piece.plain spec.line])
          ++ [[]]) := by
    simp [MentionsHost]
  have helper :
      MentionsHost
          (if .json ∈ expression.pieces 0 then jsonHelperPieces ++ [[]] else []) ↔
        expression.usesJson = true := by
    simp only [Expr.json_mem_pieces]
    cases expression.usesJson <;> simp [MentionsHost, jsonHelperPieces]
  rw [modulePieces, mentionsHost_append, mentionsHost_append, helper,
    mentionsHost_definitionPieces, Expr.exists_hostType_mem_pieces]
  simp only [importLines, false_or]
  exact or_left_comm

/-- The text of a unit is that of the pieces of its module. -/
theorem renderModule_of_written
    (workingDirectory : String)
    (context : Context)
    {unit : SchemaUnit}
    (noIndex : unit.kind ≠ .index)
    {expression : Expr}
    (isExpression : unit.expression = some expression)
    (written : expression.Written) :
    unit.renderModule workingDirectory context =
      .ok ⟨unit.path,
        joinLines
          ((unit.modulePieces workingDirectory context (expression.pieces 0)).map joinPieces)⟩ := by
  have json : .json ∈ expression.pieces 0 ↔ unit.usesJson = true := by
    rw [Expr.json_mem_pieces, usesJson, isExpression]
    rfl
  rw [renderModule, if_neg noIndex, isExpression, map_joinPieces_modulePieces _ _ json]
  simp only [written.render_eq_joinPieces]

/-- Whether the namespace of the host is imported exactly if the module mentions it. -/
def ImportsHostExactly (workingDirectory : String) (context : Context) (unit : SchemaUnit)
    (body : List Piece) : Prop :=
  unit.hostImport workingDirectory context ∈ unit.imports workingDirectory context ↔
    MentionsHost (unit.modulePieces workingDirectory context body)

end SchemaUnit

namespace Assembly

open Metadata

/-- The units that enumerations, composites and operations become. -/
inductive Produced (context : Context) : SchemaUnit → Prop where
  | enumeration (enumType : EnumType) :
      Produced context (enumUnit enumType)
  | composite
      {composite : Composite}
      (named : composite.name ≠ "") :
      Produced context (compositeUnit context composite)
  | operation
      (document : Document)
      (model : Model)
      (operation : Operation) :
      Produced context (operationUnit context document model operation)

theorem Produced.exists_expression
    {context : Context}
    {unit : SchemaUnit}
    (produced : Produced context unit) :
    unit.kind ≠ .index ∧ ∃ expression, unit.expression = some expression ∧ expression.Written := by
  cases produced with
  | enumeration enumType =>
      obtain ⟨text, rendered⟩ := Expr.renders_enumeration enumType.values 0
      exact ⟨nofun, _, rfl, Expr.written_of_render rendered⟩
  | composite named =>
      obtain ⟨text, rendered⟩ := Expr.renders_object renders_of_mem_compositeFields true 0
      exact ⟨nofun, _, rfl, Expr.written_of_render rendered⟩
  | operation document model operation =>
      have plain :=
        plainFields_arguments context (modelSupport document model) model operation
      obtain ⟨text, rendered⟩ :=
        Expr.renders_object (fun argument member => (plain argument member).renders) false 0
      exact ⟨nofun, _, rfl, Expr.written_of_render rendered⟩

theorem Produced.kind_eq_object_of_hostType
    {context : Context}
    {unit : SchemaUnit}
    (produced : Produced context unit)
    {name : String}
    (annotated : unit.hostType = some name) :
    unit.kind = .object := by
  cases produced with
  | enumeration | operation =>
      contradiction
  | composite named =>
      rfl

/-- The namespace of the host is imported without need only for a host type without a name. -/
theorem Produced.importsHostExactly_iff
    (workingDirectory : String)
    {context : Context}
    {unit : SchemaUnit}
    (produced : Produced context unit)
    {expression : Expr}
    (isExpression : unit.expression = some expression) :
    unit.ImportsHostExactly workingDirectory context (expression.pieces 0) ↔
      (unit.hostType = some "" →
        SchemaUnit.MentionsHost
          (unit.modulePieces workingDirectory context (expression.pieces 0))) := by
  have imported :
      unit.hostImport workingDirectory context ∈ unit.imports workingDirectory context ↔
        unit.hostType.isSome = true ∨ expression.usesJson = true ∨
          expression.hasAnnotation = true := by
    rw [SchemaUnit.hostImport_mem_imports produced.exists_expression.1]
    simp [SchemaUnit.needsHostTypes, SchemaUnit.usesJson, isExpression, or_assoc]
  rw [SchemaUnit.ImportsHostExactly, imported, SchemaUnit.mentionsHost_modulePieces]
  cases annotated : unit.hostType with
  | none =>
      simp
  | some name =>
      have isObject := produced.kind_eq_object_of_hostType annotated
      by_cases unnamed : name = "" <;> simp [isObject, unnamed]

theorem eq_of_annotatedType?
    {composite : Composite}
    {hostType name : String}
    (annotated : annotatedType? composite hostType = some name) :
    hostType = name := by
  unfold annotatedType? at annotated
  split at annotated
  · exact Option.some.inj annotated
  · contradiction

/-- The arguments of raw operations that a document lists have names. -/
theorem hostType_ne_empty_of_build
    {settings : Settings}
    {document : Document}
    {unit : SchemaUnit}
    (produced : Produced (.build settings document) unit) :
    unit.hostType ≠ some "" := by
  cases produced with
  | enumeration | operation =>
      exact nofun
  | @composite composite named =>
      intro unnamed
      have isEmpty : (compositeNames (.build settings document) composite.name).2 = "" :=
        eq_of_annotatedType? unnamed
      unfold compositeNames at isEmpty
      split at isEmpty
      · rename_i arguments renamed
        obtain ⟨operation, mapping, -, entry⟩ := exists_mapping_of_rawOperation? renamed
        have isArguments : arguments = (rawOperationEntry operation mapping.model).2 := by
          rw [entry]
        rw [isArguments, rawOperationEntry] at isEmpty
        by_cases isFind : operation = "findRaw" <;> simp [isFind] at isEmpty
      · split at isEmpty
        · simp at isEmpty
        · exact named isEmpty

/-- A unit with an expression is written to a module that imports each symbol its body mentions, but
its own, once and in the order of the first mentions, and that defines the shared validator for
arbitrary JSON where its body mentions it.  Enumerations, composites and operations have an
expression.  Their modules import the namespace of the host exactly if they mention it, unless a
host type has no name, which none in the context of a document has. -/
theorem modules_import_mentions
    (workingDirectory : String)
    (context : Context)
    (unit : SchemaUnit) :
    (unit.kind ≠ .index →
      ∀ expression, unit.expression = some expression → expression.Written →
        expression.render 0 = .ok (joinPieces (expression.pieces 0)) ∧
          unit.renderModule workingDirectory context =
            .ok ⟨unit.path,
              joinLines
                ((unit.modulePieces workingDirectory context (expression.pieces 0)).map
                  joinPieces)⟩ ∧
          unit.ImportsMentioned workingDirectory context (expression.pieces 0)) ∧
      (Produced context unit →
        unit.kind ≠ .index ∧
          ∃ expression,
            unit.expression = some expression ∧ expression.Written ∧
              (unit.ImportsHostExactly workingDirectory context (expression.pieces 0) ↔
                (unit.hostType = some "" →
                  SchemaUnit.MentionsHost
                    (unit.modulePieces workingDirectory context (expression.pieces 0)))) ∧
              ∀ settings document,
                context = .build settings document →
                  unit.ImportsHostExactly workingDirectory context (expression.pieces 0)) := by
  constructor
  · intro noIndex expression isExpression written
    exact ⟨written.render_eq_joinPieces 0,
      SchemaUnit.renderModule_of_written workingDirectory context noIndex isExpression written,
      SchemaUnit.importsMentioned workingDirectory context noIndex isExpression⟩
  · intro produced
    obtain ⟨noIndex, expression, isExpression, written⟩ := produced.exists_expression
    have exactly := produced.importsHostExactly_iff workingDirectory isExpression
    refine ⟨noIndex, expression, isExpression, written, exactly, ?_⟩
    rintro settings document rfl
    exact exactly.mpr fun unnamed => absurd unnamed (hostType_ne_empty_of_build produced)

/-- A composite with a nested write, arbitrary JSON and two references to one enumeration. -/
def commentedPost : Composite where
  name := "PostCreateInput"
  fields :=
    [⟨"meta", false, true, [⟨"Json", false, .scalar, none⟩]⟩,
      ⟨"state", true, false,
        [⟨"State", false, .enumTypes, none⟩, ⟨"State", true, .enumTypes, none⟩]⟩,
      ⟨"parent", false, false,
        [⟨"PostCreateInput", false, .inputObjectTypes, some hostOrigin⟩,
          ⟨"UserCreateNestedOneWithoutPostsInput", false, .inputObjectTypes, some hostOrigin⟩]⟩]

/-- The expression of the unit that the composite becomes. -/
def commentedPostExpression : Expr :=
  .object (compositeFields .default commentedPost) true

theorem modules_import_mentions_commentedPost :
    (compositeUnit .default commentedPost).kind ≠ .index ∧
      (compositeUnit .default commentedPost).expression = some commentedPostExpression ∧
      commentedPostExpression.Written ∧
      (compositeUnit .default commentedPost).ImportsMentioned "/work" .default
        (commentedPostExpression.pieces 0) ∧
      Produced .default (compositeUnit .default commentedPost) ∧
      .default = Context.build .default ⟨.postgresql, [], [], [], [], [], none⟩ ∧
      (compositeUnit .default commentedPost).ImportsHostExactly "/work" .default
        (commentedPostExpression.pieces 0) := by
  have produced : Produced .default (compositeUnit .default commentedPost) :=
    .composite (by decide)
  have built : .default = Context.build .default ⟨.postgresql, [], [], [], [], [], none⟩ := by
    decide
  have holds := modules_import_mentions "/work" .default (compositeUnit .default commentedPost)
  obtain ⟨noIndex, expression, isExpression, written, -, exactly⟩ := holds.2 produced
  obtain rfl : commentedPostExpression = expression := Option.some.inj isExpression
  obtain ⟨-, -, mentioned⟩ := holds.1 noIndex _ rfl written
  exact ⟨noIndex, rfl, written, mentioned, produced, built, exactly _ _ built⟩

/-- A context in which the arguments of a raw operation have no name. -/
def namelessArguments : Context :=
  { Context.default with rawOperations := [("findUserRaw", "")] }

/-- A composite of the name of that raw operation with a nested write. -/
def rawNestedWrite : Composite where
  name := "findUserRaw"
  fields :=
    [⟨"a", false, false,
      [⟨"PostCreateNestedOneWithoutUserInput", false, .inputObjectTypes, some hostOrigin⟩]⟩]

/-- The module of this composite imports the namespace of the host and does not mention it. -/
theorem not_importsHostExactly_rawNestedWrite :
    Produced namelessArguments (compositeUnit namelessArguments rawNestedWrite) ∧
      ∃ expression,
        (compositeUnit namelessArguments rawNestedWrite).expression = some expression ∧
          ¬ (compositeUnit namelessArguments rawNestedWrite).ImportsHostExactly "/work"
            namelessArguments (expression.pieces 0) := by
  have produced : Produced namelessArguments (compositeUnit namelessArguments rawNestedWrite) :=
    .composite (by decide)
  have unnamed : (compositeUnit namelessArguments rawNestedWrite).hostType = some "" := by
    decide
  refine ⟨produced, _, rfl, ?_⟩
  rw [produced.importsHostExactly_iff "/work" rfl, SchemaUnit.mentionsHost_modulePieces]
  intro mentions
  obtain ⟨-, name, isName, named⟩ | json | annotated := mentions unnamed
  · exact named (Option.some.inj (isName.symm.trans unnamed))
  · exact absurd json (by decide +kernel)
  · exact absurd annotated (by decide +kernel)

end Assembly

end ZodSchemas
