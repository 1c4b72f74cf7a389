import ZodSchemas.Expr.Basic
import ZodSchemas.Settings.Basic
import ZodSchemas.Text.Case

namespace ZodSchemas.Assembly

/-!
# Validators of composite fields

A field of a composite combines the validators of its alternatives.  A scalar
becomes a primitive call; any other alternative becomes a reference to an
enumeration, to the bulk query of a model, or to a composite.  A reference to
the owner itself or to a composite of the host is deferred, because its module
may not be evaluated yet.  Alternatives without a validator are left out.
-/

open Metadata

/-- The scalar type whose values are arbitrary JSON. -/
def jsonType : String := "Json"

/-- The primitive call for each scalar type with one. -/
def primitiveCodes : List (String × String) :=
  [("String", "z.string()"), ("Int", "z.number().int()"), ("Float", "z.number()"),
    ("Decimal", "z.number()"), ("BigInt", "z.bigint()"), ("Boolean", "z.boolean()"),
    ("DateTime", "z.coerce.date()"), ("True", "z.literal(true)"),
    ("Bytes", "z.instanceof(Uint8Array)")]

def scalar? (typeName : String) : Option Expr :=
  if typeName = jsonType then some .json
  else (primitiveCodes.lookup typeName).map .primitive

/-- The wrappers of an alternative: first the one for lists, then the one for fields that may be
absent. -/
def wrapped (field : InputField) (alternative : TypeAlternative) (base : Expr) : Expr :=
  let listed := if alternative.isList then .array base else base
  if field.isRequired then listed else .optional listed

/-- The validator of an alternative read as a scalar. -/
def scalarAlternative? (field : InputField) (alternative : TypeAlternative) : Option Expr :=
  (scalar? alternative.typeName).map (wrapped field alternative)

/-- The text before the first occurrence of a part. -/
def before? (part : List Char) : List Char → Option (List Char)
  | [] => if part.isEmpty then some [] else none
  | char :: rest =>
      if part.isPrefixOf (char :: rest) then some []
      else (before? part rest).map (char :: ·)

/-- What the names of the argument types of bulk queries contain behind the name of the model. -/
def bulkQueryMark : String := "FindManyArgs"

def bulkQueryModel? (typeName : String) : Option String :=
  match before? bulkQueryMark.toList typeName.toList with
  | none | some [] => none
  | some model => some (String.ofList model)

def operationUnitName (model : String) (operation : Operation) : String :=
  Text.capitalizeFirst model ++ operation.verb

/-- The name of the unit that the arguments of a raw operation become. -/
def rawUnitName (arguments : String) : String :=
  removeAll "Args" arguments

def compositeUnitName (context : Context) (composite : String) : String :=
  match context.rawOperation? composite with
  | some arguments => rawUnitName arguments
  | none => composite

def referenceKind? (context : Context) (alternative : TypeAlternative) : Option ReferenceKind :=
  match alternative.location with
  | .enumTypes => some .enumeration
  | .inputObjectTypes =>
      if context.isEnum alternative.typeName then some .enumeration
      else if (bulkQueryModel? alternative.typeName).isSome then some .operation
      else some .object
  | .scalar | .fieldRefTypes => none

def hostOrigin : String := "prisma"

/-- Whether the reference to a composite has to wait until it is used. -/
def isDeferred (owner : String) (alternative : TypeAlternative) : Bool :=
  alternative.typeName == owner || alternative.origin == some hostOrigin

def compositeReference (context : Context) (owner : String) (alternative : TypeAlternative) : Expr :=
  let reference := .reference ⟨compositeUnitName context alternative.typeName, .object⟩
  if isDeferred owner alternative then .deferred reference none else reference

/-- The validator of an alternative that refers to another unit, without wrappers. -/
def referenceBase? (context : Context) (owner : String) (alternative : TypeAlternative) :
    Option Expr :=
  (referenceKind? context alternative).map fun
    | .enumeration => .reference ⟨alternative.typeName, .enumeration⟩
    | .operation =>
        .reference ⟨operationUnitName ((bulkQueryModel? alternative.typeName).getD "") .findMany,
          .operation⟩
    | .object => compositeReference context owner alternative

/-- The validator of an alternative that refers to another unit. -/
def referenceAlternative? (context : Context) (owner : String) (field : InputField)
    (alternative : TypeAlternative) : Option Expr :=
  (referenceBase? context owner alternative).map (wrapped field alternative)

def alternative? (context : Context) (owner : String) (field : InputField)
    (alternative : TypeAlternative) : Option Expr :=
  if alternative.isScalar then scalarAlternative? field alternative
  else referenceAlternative? context owner field alternative

/-- The union of several validators, with one optional wrapper instead of theirs. -/
def unionOf (field : InputField) (alternatives : List Expr) : Expr :=
  let union := .union (alternatives.map Expr.stripOptional)
  if field.isRequired then union else .optional union

/-- The validator of a field from those of its alternatives: nothing from none, the only one as it
is, the union of several; a field that accepts null has the outermost wrapper. -/
def combined? (field : InputField) (alternatives : List Expr) : Option Expr :=
  let joined :=
    match alternatives with
    | [] => none
    | [only] => some only
    | several => some (unionOf field several)
  if field.isNullable then joined.map .nullable else joined

/-- The validator of a field, if one of its alternatives has one. -/
def fieldExpr? (context : Context) (owner : String) (field : InputField) : Option Expr :=
  combined? field (field.alternatives.filterMap (alternative? context owner field))

/-- The entry of a field in the object of its owner. -/
def fieldOf? (context : Context) (owner : String) (field : InputField) :
    Option (String × Expr) :=
  (fieldExpr? context owner field).map (field.name, ·)

end ZodSchemas.Assembly
