import ZodSchemas.Expr.Basic

namespace ZodSchemas

/-!
# Units

A unit becomes one module: a named validator with the kind that decides its
directory and its exported symbol, or the index that re-exports all others.
-/

/-- The kind of a unit. -/
inductive UnitKind where
  | object
  | enumeration
  | operation
  | index
deriving Repr, DecidableEq

namespace UnitKind

/-- Every kind, in declaration order. -/
def all : List UnitKind :=
  [.object, .enumeration, .operation, .index]

def label : UnitKind → String
  | .object => "object"
  | .enumeration => "enum"
  | .operation => "operation"
  | .index => "index"

/-- The directory of the modules of a kind, below the schemas directory. -/
def directory : UnitKind → String
  | .object => "objects"
  | .enumeration => "enums"
  | .operation | .index => ""

end UnitKind

/-- What one module is rendered from; `members` are the stems an index re-exports. -/
structure SchemaUnit where
  kind : UnitKind
  name : String
  expression : Option Expr
  hostType : Option String
  members : List String
deriving Repr, BEq

namespace SchemaUnit

/-- The symbol that the module exports. -/
def exportName (unit : SchemaUnit) : String :=
  match unit.kind with
  | .object => unit.name ++ "ObjectSchema"
  | .enumeration | .operation | .index => unit.name ++ "Schema"

/-- The directory of the module, below the schemas directory. -/
def directory (unit : SchemaUnit) : String :=
  unit.kind.directory

/-- The path of the module without extension, below the schemas directory. -/
def stem (unit : SchemaUnit) : String :=
  match unit.kind with
  | .index => "index"
  | .operation => unit.name ++ ".schema"
  | .object | .enumeration => unit.directory ++ "/" ++ unit.name ++ ".schema"

/-- The path of the module below the schemas directory. -/
def path (unit : SchemaUnit) : String :=
  unit.stem ++ ".ts"

/-- The reference to the unit itself, which a composite may contain. -/
def selfReference? (unit : SchemaUnit) : Option Reference :=
  match unit.kind with
  | .object => some ⟨unit.name, .object⟩
  | .enumeration | .operation | .index => none

/-- Whether the validator for arbitrary JSON occurs in the unit. -/
def usesJson (unit : SchemaUnit) : Bool :=
  unit.expression.any Expr.usesJson

/-- Whether the module mentions host types. -/
def needsHostTypes (unit : SchemaUnit) : Bool :=
  unit.hostType.isSome || unit.usesJson || unit.expression.any Expr.hasAnnotation

/-- The references of the unit other than the one to itself. -/
def references (unit : SchemaUnit) : List Reference :=
  match unit.expression with
  | none => []
  | some expression => expression.references.filter fun reference =>
      some reference ≠ unit.selfReference?

/-- The one-line form of a unit. -/
def summary (unit : SchemaUnit) : String :=
  "<GeneratedUnit " ++ unit.kind.label ++ " " ++ unit.path ++ ">"

/-- The index of units, which lists the stems of all that are no index themselves. -/
def index (units : List SchemaUnit) : SchemaUnit where
  kind := .index
  name := "index"
  expression := none
  hostType := none
  members := (units.filter (·.kind ≠ .index)).map stem

end SchemaUnit

end ZodSchemas
