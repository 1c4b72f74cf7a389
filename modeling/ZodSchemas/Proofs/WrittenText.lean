import Mathlib.Data.List.Basic
import ZodSchemas.Expr.Render
import ZodSchemas.Proofs.Traversals

namespace ZodSchemas

/-!
# What the text of an expression mentions

The text of an expression is a sequence of pieces.  Some of them need an import
or a definition elsewhere in the module: the symbol of another schema, the
shared validator for arbitrary JSON, a type of the host.  These marked pieces
stand in the order in which the walk through the expression meets their nodes.
-/

/-- A part of a written text. -/
inductive Piece where
  | plain (text : String)
  | symbol (target : Reference)
  | json
  | hostType (name : String)
deriving Repr, DecidableEq

namespace Piece

def text : Piece → String
  | .plain text => text
  | .symbol target => target.symbol
  | .json => jsonSymbol
  | .hostType name => "Prisma." ++ name

def symbol? : Piece → Option Reference
  | .symbol target => some target
  | .plain _ | .json | .hostType _ => none

/-- Whether a piece mentions something that is imported or defined elsewhere. -/
def isMarked : Piece → Bool
  | .plain _ => false
  | .symbol _ | .json | .hostType _ => true

end Piece

def joinPieces (pieces : List Piece) : String :=
  String.join (pieces.map Piece.text)

@[simp] theorem joinPieces_nil :
    joinPieces [] = "" :=
  String.join_nil

@[simp] theorem joinPieces_cons
    (first : Piece)
    (rest : List Piece) :
    joinPieces (first :: rest) = first.text ++ joinPieces rest := by
  simp [joinPieces]

@[simp] theorem joinPieces_append
    (pieces others : List Piece) :
    joinPieces (pieces ++ others) = joinPieces pieces ++ joinPieces others := by
  simp [joinPieces]

theorem joinPieces_intercalate
    (separator : String)
    (parts : List (List Piece)) :
    joinPieces ([.plain separator].intercalate parts) =
      separator.intercalate (parts.map joinPieces) := by
  induction parts with
  | nil =>
      simp
  | cons first rest inductionHypothesis =>
      cases rest with
      | nil =>
          simp
      | cons second rest =>
          rw [List.intercalate_cons_cons, joinPieces_append, joinPieces_append,
            inductionHypothesis]
          simp [String.intercalate_cons_cons, Piece.text]

/-- Plain separators add no mark. -/
theorem filter_isMarked_intercalate
    (separator : String)
    (parts : List (List Piece)) :
    ([.plain separator].intercalate parts).filter Piece.isMarked =
      (parts.map (·.filter Piece.isMarked)).flatten := by
  induction parts with
  | nil =>
      rfl
  | cons first rest inductionHypothesis =>
      cases rest with
      | nil =>
          simp
      | cons second rest =>
          rw [List.intercalate_cons_cons, List.filter_append, List.filter_append,
            inductionHypothesis]
          simp [Piece.isMarked]

namespace Expr

/-- The class of a node without a written form. -/
def foreignClass? : Expr → Option String
  | .foreign className => some className
  | _ => none

/-- Every node of an expression has a written form. -/
def Written (expr : Expr) : Prop :=
  ∀ className, .foreign className ∉ expr.walk

theorem written_iff
    {expr : Expr} :
    expr.Written ↔ expr.walk.findSome? foreignClass? = none := by
  rw [List.findSome?_eq_none_iff]
  constructor
  · intro written node member
    cases node with
    | foreign className =>
        exact absurd member (written className)
    | primitive | json | reference | deferred | array | optional | nullable | union | object
    | enumeration =>
        rfl
  · intro noClass className member
    exact absurd (noClass _ member) (by simp [foreignClass?])

/-- What is written, unless a foreign node is met first. -/
def unlessForeign (first? : Option String) (written : α) : Except RenderError α :=
  match first? with
  | none => .ok written
  | some className => .error (.foreignExpression className)

theorem unlessForeign_bind_ok
    (first? : Option String)
    (written : α)
    (wrap : α → β) :
    (unlessForeign first? written >>= fun inner => .ok (wrap inner)) =
      unlessForeign first? (wrap written) := by
  cases first? <;> rfl

theorem unlessForeign_bind_bind_ok
    (first? second? : Option String)
    (first : α)
    (second : β)
    (combine : α → β → γ) :
    (unlessForeign first? first >>= fun earlier =>
      unlessForeign second? second >>= fun later => .ok (combine earlier later)) =
      unlessForeign (first?.or second?) (combine first second) := by
  cases first? <;> cases second? <;> rfl

/-- The marked piece that a node itself contributes. -/
def mark? : Expr → Option Piece
  | .json => some .json
  | .reference target => some (.symbol target)
  | .deferred _ (some name) => if name.isEmpty then none else some (.hostType name)
  | _ => none

/-- The pieces in front of the inner expression of a deferred binding. -/
def deferredPieces (hostType : Option String) : List Piece :=
  match hostType with
  | some name =>
      if name.isEmpty then [.plain "z.lazy(() => "]
      else [.plain "z.lazy((): z.ZodType<", .hostType name, .plain "> => "]
  | none => [.plain "z.lazy(() => "]

/-- The pieces of an object whose fields have the given lines. -/
def objectPieces (strict : Bool) (level : Int) (lines : List (List Piece)) : List Piece :=
  let suffix := if strict then ".strict()" else ""
  if lines.isEmpty then
    [.plain ("z.object(\x7b\x7d)" ++ suffix)]
  else
    [.plain "\n"].intercalate
      ([[.plain "z.object(\x7b"]] ++ lines ++ [[.plain (indentation level ++ "\x7d)" ++ suffix)]])

mutual

/-- The pieces of the text of an expression at a nesting level. -/
def pieces (level : Int) : Expr → List Piece
  | .primitive code => [.plain code]
  | .json => [.json]
  | .reference target => [.symbol target]
  | .deferred inner hostType => deferredPieces hostType ++ pieces level inner ++ [.plain ")"]
  | .array inner => pieces level inner ++ [.plain ".array()"]
  | .optional inner => pieces level inner ++ [.plain ".optional()"]
  | .nullable inner => pieces level inner ++ [.plain ".nullable()"]
  | .union members =>
      [.plain "z.union(["] ++ [.plain ", "].intercalate (piecesAll level members) ++ [.plain "])"]
  | .object fields strict => objectPieces strict level (piecesFields level fields)
  | .enumeration values => [.plain (enumerationText values)]
  | .foreign _ => []

/-- The pieces of each of several expressions. -/
def piecesAll (level : Int) : List Expr → List (List Piece)
  | [] => []
  | first :: rest => pieces level first :: piecesAll level rest

/-- The pieces of the line of each of several fields. -/
def piecesFields (level : Int) : List (String × Expr) → List (List Piece)
  | [] => []
  | (name, value) :: rest =>
      ([.plain (indentation (level + 1) ++ Text.objectKey name ++ ": ")]
          ++ pieces (level + 1) value ++ [.plain ","]) ::
        piecesFields level rest

end

theorem joinPieces_deferredPieces
    (hostType : Option String)
    (inner : List Piece) :
    joinPieces (deferredPieces hostType ++ inner ++ [.plain ")"]) =
      deferredText hostType (joinPieces inner) := by
  cases hostType with
  | none =>
      simp [deferredPieces, deferredText, Piece.text, String.append_assoc]
  | some name =>
      by_cases unnamed : name.isEmpty <;>
        simp [deferredPieces, deferredText, Piece.text, unnamed, ← String.append_assoc]

theorem joinPieces_objectPieces
    (strict : Bool)
    (level : Int)
    (lines : List (List Piece)) :
    joinPieces (objectPieces strict level lines) =
      objectText strict level (lines.map joinPieces) := by
  cases lines with
  | nil =>
      simp [objectPieces, objectText, Piece.text]
  | cons first rest =>
      simp [objectPieces, objectText, joinPieces_intercalate, Piece.text, ← String.append_assoc]

mutual

/-- An expression is written as its pieces, unless it has a foreign node; then the first one from
the left is reported. -/
theorem render_eq_unlessForeign
    (level : Int) :
    (expr : Expr) →
      expr.render level =
        unlessForeign (expr.walk.findSome? foreignClass?) (joinPieces (expr.pieces level))
  | .primitive code => by
      simp [render, walk, foreignClass?, pieces, Piece.text, unlessForeign]
  | .json => rfl
  | .reference target => by
      simp [render, walk, foreignClass?, pieces, Piece.text, unlessForeign]
  | .deferred inner hostType => by
      rw [render, render_eq_unlessForeign level inner, unlessForeign_bind_ok, pieces,
        joinPieces_deferredPieces]
      rfl
  | .array inner
  | .optional inner
  | .nullable inner => by
      rw [render, render_eq_unlessForeign level inner, unlessForeign_bind_ok, pieces,
        joinPieces_append]
      rfl
  | .union members => by
      rw [render, renderAll_eq_unlessForeign level members, unlessForeign_bind_ok, pieces,
        joinPieces_append, joinPieces_append, joinPieces_intercalate]
      rfl
  | .object fields strict => by
      rw [render, renderFields_eq_unlessForeign level fields, unlessForeign_bind_ok, pieces,
        joinPieces_objectPieces]
      rfl
  | .enumeration values => by
      simp [render, walk, foreignClass?, pieces, Piece.text, unlessForeign]
  | .foreign className => rfl

theorem renderAll_eq_unlessForeign
    (level : Int) :
    (members : List Expr) →
      renderAll level members =
        unlessForeign ((walkAll members).findSome? foreignClass?)
          ((piecesAll level members).map joinPieces)
  | [] => rfl
  | first :: rest => by
      rw [renderAll, render_eq_unlessForeign level first, renderAll_eq_unlessForeign level rest,
        unlessForeign_bind_bind_ok, walkAll, List.findSome?_append]
      rfl

theorem renderFields_eq_unlessForeign
    (level : Int) :
    (fields : List (String × Expr)) →
      renderFields level fields =
        unlessForeign ((walkFields fields).findSome? foreignClass?)
          ((piecesFields level fields).map joinPieces)
  | [] => rfl
  | (name, value) :: rest => by
      rw [renderFields, render_eq_unlessForeign (level + 1) value,
        renderFields_eq_unlessForeign level rest, unlessForeign_bind_bind_ok, walkFields,
        List.findSome?_append]
      simp [piecesFields, fieldLine, Piece.text, String.append_assoc]

end

theorem Written.render_eq_joinPieces
    {expr : Expr}
    (written : expr.Written)
    (level : Int) :
    expr.render level = .ok (joinPieces (expr.pieces level)) := by
  rw [render_eq_unlessForeign, written_iff.mp written]
  rfl

/-- Whatever has a text has no foreign node. -/
theorem written_of_render
    {level : Int}
    {expr : Expr}
    {text : String}
    (rendered : expr.render level = .ok text) :
    expr.Written := by
  rw [render_eq_unlessForeign] at rendered
  rw [written_iff]
  cases first : expr.walk.findSome? foreignClass? with
  | none =>
      rfl
  | some className =>
      rw [first] at rendered
      contradiction

theorem filter_isMarked_deferredPieces
    (inner : Expr)
    (hostType : Option String) :
    (deferredPieces hostType).filter Piece.isMarked =
      (mark? (.deferred inner hostType)).toList := by
  cases hostType with
  | none =>
      rfl
  | some name =>
      by_cases unnamed : name.isEmpty <;>
        simp [deferredPieces, mark?, unnamed, List.filter_cons, Piece.isMarked]

theorem filter_isMarked_objectPieces
    (strict : Bool)
    (level : Int)
    (lines : List (List Piece)) :
    (objectPieces strict level lines).filter Piece.isMarked =
      (lines.map (·.filter Piece.isMarked)).flatten := by
  cases lines with
  | nil =>
      rfl
  | cons first rest =>
      simp [objectPieces, filter_isMarked_intercalate, Piece.isMarked]

mutual

/-- The marked pieces of an expression are those of its nodes, in the order of the walk. -/
theorem filter_isMarked_pieces
    (level : Int) :
    (expr : Expr) → (expr.pieces level).filter Piece.isMarked = expr.walk.filterMap mark?
  | .primitive code => rfl
  | .json => rfl
  | .reference target => rfl
  | .deferred inner hostType => by
      rw [pieces, List.filter_append, List.filter_append, filter_isMarked_pieces level inner,
        filter_isMarked_deferredPieces inner, walk]
      cases mark : mark? (.deferred inner hostType) <;>
        simp [mark, Piece.isMarked]
  | .array inner
  | .optional inner
  | .nullable inner => by
      rw [pieces, List.filter_append, filter_isMarked_pieces level inner, walk]
      simp [mark?, List.filterMap_cons, Piece.isMarked]
  | .union members => by
      rw [pieces, List.filter_append, List.filter_append, filter_isMarked_intercalate,
        filter_isMarked_piecesAll level members, walk]
      simp [mark?, List.filterMap_cons, Piece.isMarked]
  | .object fields strict => by
      rw [pieces, filter_isMarked_objectPieces, filter_isMarked_piecesFields level fields, walk]
      simp [mark?, List.filterMap_cons]
  | .enumeration values => rfl
  | .foreign className => rfl

theorem filter_isMarked_piecesAll
    (level : Int) :
    (members : List Expr) →
      ((piecesAll level members).map (·.filter Piece.isMarked)).flatten =
        (walkAll members).filterMap mark?
  | [] => rfl
  | first :: rest => by
      rw [piecesAll, walkAll, List.map_cons, List.flatten_cons, List.filterMap_append,
        filter_isMarked_pieces level first, filter_isMarked_piecesAll level rest]

theorem filter_isMarked_piecesFields
    (level : Int) :
    (fields : List (String × Expr)) →
      ((piecesFields level fields).map (·.filter Piece.isMarked)).flatten =
        (walkFields fields).filterMap mark?
  | [] => rfl
  | (name, value) :: rest => by
      rw [piecesFields, walkFields, List.map_cons, List.flatten_cons, List.filterMap_append,
        filter_isMarked_piecesFields level rest, List.filter_append, List.filter_append,
        filter_isMarked_pieces (level + 1) value]
      simp [Piece.isMarked]

end

/-- A marked piece is written where the walk meets its node. -/
theorem mem_pieces_iff
    {level : Int}
    {expr : Expr}
    {piece : Piece}
    (marked : piece.isMarked) :
    piece ∈ expr.pieces level ↔ ∃ node ∈ expr.walk, node.mark? = some piece := by
  rw [← List.mem_filterMap, ← filter_isMarked_pieces level, List.mem_filter]
  simp [marked]

/-- The marks tell the nodes apart that imports and definitions depend on. -/
theorem mark?_classifies
    (node : Expr) :
    node.mark?.bind Piece.symbol? = node.reference? ∧
      (node.mark? = some .json ↔ node.isJson = true) ∧
      ((∃ name, node.mark? = some (.hostType name)) ↔ node.isAnnotated = true) := by
  rcases node with _ | _ | _ | ⟨_, _ | name⟩ | _ | _ | _ | _ | _ | _ | _
  case deferred.some =>
    by_cases unnamed : name.isEmpty <;>
      simp [mark?, reference?, isJson, isAnnotated, Piece.symbol?, unnamed]
  all_goals simp [mark?, reference?, isJson, isAnnotated, Piece.symbol?]

/-- The symbols in a text are those of the occurrences of references, from left to right. -/
theorem filterMap_symbol?_pieces
    (level : Int)
    (expr : Expr) :
    (expr.pieces level).filterMap Piece.symbol? = expr.occurrences := by
  have ofMarked (pieces : List Piece) :
      pieces.filterMap Piece.symbol? = (pieces.filter Piece.isMarked).filterMap Piece.symbol? := by
    rw [List.filterMap_filter]
    refine List.filterMap_congr fun piece _ => ?_
    cases piece <;> rfl
  rw [ofMarked, filter_isMarked_pieces, List.filterMap_filterMap, occurrences, nodes_eq_walk]
  exact List.filterMap_congr fun node _ => node.mark?_classifies.1

theorem json_mem_pieces
    {level : Int}
    {expr : Expr} :
    .json ∈ expr.pieces level ↔ expr.usesJson = true := by
  rw [mem_pieces_iff rfl, usesJson, nodes_eq_walk, List.any_eq_true]
  simp only [(mark?_classifies _).2.1]

/-- A host type is written exactly where a deferred binding is annotated. -/
theorem exists_hostType_mem_pieces
    {level : Int}
    {expr : Expr} :
    (∃ name, .hostType name ∈ expr.pieces level) ↔ expr.hasAnnotation = true := by
  unfold hasAnnotation
  rw [nodes_eq_walk, List.any_eq_true]
  simp only [← (mark?_classifies _).2.2]
  constructor
  · rintro ⟨name, written⟩
    obtain ⟨node, member, mark⟩ := (mem_pieces_iff rfl).mp written
    exact ⟨node, member, name, mark⟩
  · rintro ⟨node, member, name, mark⟩
    exact ⟨name, (mem_pieces_iff rfl).mpr ⟨node, member, mark⟩⟩

end Expr

end ZodSchemas
