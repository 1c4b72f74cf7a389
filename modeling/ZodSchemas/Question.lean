import ZodSchemas.Assembly.HostType
import ZodSchemas.Json.Printer
import ZodSchemas.Path
import ZodSchemas.Text.CamelCase
import ZodSchemas.Text.Digest
import ZodSchemas.Text.Layout

namespace ZodSchemas.Question

/-!
# Questions about names

What can be asked about the name of a type, a model or a path can be asked with
any value of a document.  A question looks its value up, takes it as a text, or
asks it for what texts have.  Looked up can be what cannot change; a value that
does not allow what a question does with it has a fault instead of an answer.
-/

open Data
open Metadata

/-- Why a question has no answer: a value of another kind, a value without what texts have, a path
to nowhere, a value outside a vocabulary, or a text with halves of surrogate pairs. -/
inductive Fault where
  | wrongKind
  | noAttribute
  | noPath
  | noMember (value : Value) (vocabulary : String)
  | notUnicode
deriving Repr, BEq

/-- The sentence about a fault. -/
def Fault.message : Fault → String
  | .wrongKind => "The value is of another kind."
  | .noAttribute => "The value is no text."
  | .noPath => "no path specified"
  | .noMember value vocabulary => value.literal ++ " is not a valid " ++ vocabulary
  | .notUnicode => "The text has halves of surrogate pairs."

def text? : Value → Option String
  | .text value => some value
  | _ => none

/-- The text that a value is, or a fault. -/
def textOr (fault : Fault) (value : Value) : Except Fault String :=
  match text? value with
  | some text => .ok text
  | none => .error fault

/-- The text by which a value is looked up, none for a value that is no text. -/
def key? (value : Value) : Except Fault (Option String) :=
  if value.isFixed then .ok (text? value) else .error .wrongKind

def member (vocabulary : String) (all : List α) (label : α → String) (value : Value) :
    Except Fault α :=
  match (text? value).bind fun name => all.find? (label · == name) with
  | some found => .ok found
  | none => .error (.noMember value vocabulary)

/-! ## Spelling -/

/-- The name with its first character in upper case; what counts as absent has no character. -/
def capitalized (value : Value) : Except Fault String := do
  match ← key? value with
  | some name => .ok (Text.capitalizeFirst name)
  | none => if value.isVacant then .ok "" else .error .wrongKind

def camelCase (value : Value) : Except Fault String :=
  (textOr .wrongKind value).map Text.camelCase

/-- Whether the name is an identifier. -/
def isIdentifier (value : Value) : Except Fault Bool :=
  (textOr .wrongKind value).map Text.isIdentifier

/-- The value as a literal of a module. -/
def quoted (value : Value) : String :=
  Json.compact value

def objectKey (value : Value) : Except Fault String :=
  (textOr .wrongKind value).map Text.objectKey

/-! ## Contents and paths -/

/-- The number of lines; what counts as absent has none. -/
def lineCount (value : Value) : Except Fault Nat :=
  if value.isVacant then .ok 0 else (textOr .noAttribute value).map Text.lineCount

def digest (value : Value) : Except Fault String := do
  let text ← textOr .noAttribute value
  if Text.isWhole text then .ok (Text.textDigest text) else .error .notUnicode

/-- The path with slashes between its segments, as it is already. -/
def slashPath (value : Value) : Except Fault String :=
  textOr .noAttribute value

/-- The directory that a path starts from; null is the working directory. -/
def startPath : Value → Except Fault String
  | .null => .ok "."
  | value => textOr .wrongKind value

/-- The module specifier that leads from a directory to a target. -/
def specifier (workingDirectory : String) (start target : Value) : Except Fault String := do
  if target.isVacant then throw .noPath
  let target ← textOr .wrongKind target
  let start ← startPath start
  match Path.specifier? workingDirectory start target with
  | some path => .ok path
  | none => .error .noPath

/-! ## Types and operations -/

/-- Whether the value names a type of validators without parts. -/
def isScalar (value : Value) : Except Fault Bool :=
  (key? value).map fun name => (name.bind Assembly.scalar?).isSome

/-- Whether the host exports a type of the name. -/
def isHostType (value : Value) : Except Fault Bool :=
  (textOr .noAttribute value).map Assembly.isHostType

/-- Whether the name is one of a composite with aggregates. -/
def isAggregateInput (value : Value) : Except Fault Bool :=
  (textOr .noAttribute value).map Metadata.isAggregateInput

/-- Whether the name is one of the arguments of a raw operation. -/
def isRawOperationType (value : Value) : Except Fault Bool :=
  (textOr .wrongKind value).map Metadata.isRawOperationType

def bulkQueryModel? (value : Value) : Except Fault (Option String) :=
  (textOr .noAttribute value).map Assembly.bulkQueryModel?

def operation (value : Value) : Except Fault Operation :=
  member "OperationKind" Operation.all Operation.label value

def operationUnitName (model kind : Value) : Except Fault String := do
  let operation ← operation kind
  let model ← capitalized model
  .ok (model ++ operation.verb)

/-! ## Expressions at a level -/

/-- Whether an expression asks for its level: an object with fields does, unless a foreign
expression stands before it. -/
def needsLevel (expr : Expr) : Bool :=
  let asking := expr.walk.find? fun part =>
    match part with
    | .object fields _ => !fields.isEmpty
    | .foreign _ => true
    | _ => false
  match asking with
  | some (.object _ _) => true
  | _ => false

def level (expr : Expr) : Value → Except Fault Int
  | .int level => .ok level
  | .bool level => .ok (if level then 1 else 0)
  | _ => if needsLevel expr then .error .wrongKind else .ok 0

/-! ## Names in a context -/

/-- Whether the value names an enumeration of a context. -/
def isEnum (context : Context) (value : Value) : Except Fault Bool :=
  (key? value).map fun name => (name.map context.isEnum).getD false

/-- The arguments of the raw operation that the value names. -/
def rawOperation? (context : Context) (value : Value) : Except Fault (Option String) :=
  (textOr .wrongKind value).map context.rawOperation?

end ZodSchemas.Question
