import ZodSchemas.Expr.Basic
import ZodSchemas.Text.Identifier

namespace ZodSchemas

/-!
# The text of expressions

Wrappers follow what they wrap as method calls.  The fields of an object stand on
lines of their own, indented by two blanks a level.  A foreign expression has no
text, and the first one from the left is reported.
-/

/-- Why something cannot be rendered. -/
inductive RenderError where
  | foreignExpression (className : String)
  | indexUnit
  | noExpression (name : String)
  | noIndexUnit (summary : String)
deriving Repr, DecidableEq

/-- The symbol of the shared validator for arbitrary JSON. -/
def jsonSymbol : String := "jsonSchema"

/-- The blanks before a line of a nesting level. -/
def indentation (level : Int) : String :=
  String.ofList (List.replicate (2 * level.toNat) ' ')

namespace Expr

/-- The texts of values, joined by commas. -/
def enumerationText (values : List String) : String :=
  "z.enum([" ++ ", ".intercalate (values.map Text.quoted) ++ "])"

/-- The text of a deferred binding around the text of its inner expression. -/
def deferredText (hostType : Option String) (inner : String) : String :=
  match hostType with
  | some name =>
      if name.isEmpty then "z.lazy(() => " ++ inner ++ ")"
      else "z.lazy((): z.ZodType<Prisma." ++ name ++ "> => " ++ inner ++ ")"
  | none => "z.lazy(() => " ++ inner ++ ")"

/-- The text of an object whose fields have the given lines. -/
def objectText (strict : Bool) (level : Int) (lines : List String) : String :=
  let suffix := if strict then ".strict()" else ""
  if lines.isEmpty then
    "z.object(\x7b\x7d)" ++ suffix
  else
    "\n".intercalate (["z.object(\x7b"] ++ lines ++ [indentation level ++ "\x7d)" ++ suffix])

def fieldLine (level : Int) (name value : String) : String :=
  indentation (level + 1) ++ Text.objectKey name ++ ": " ++ value ++ ","

mutual

def render (level : Int) : Expr → Except RenderError String
  | .primitive code => .ok code
  | .json => .ok jsonSymbol
  | .reference target => .ok target.symbol
  | .deferred inner hostType => do
      let text ← render level inner
      .ok (deferredText hostType text)
  | .array inner => do
      let text ← render level inner
      .ok (text ++ ".array()")
  | .optional inner => do
      let text ← render level inner
      .ok (text ++ ".optional()")
  | .nullable inner => do
      let text ← render level inner
      .ok (text ++ ".nullable()")
  | .union members => do
      let texts ← renderAll level members
      .ok ("z.union([" ++ ", ".intercalate texts ++ "])")
  | .object fields strict => do
      let lines ← renderFields level fields
      .ok (objectText strict level lines)
  | .enumeration values => .ok (enumerationText values)
  | .foreign className => .error (.foreignExpression className)

/-- The texts of several expressions at a nesting level. -/
def renderAll (level : Int) : List Expr → Except RenderError (List String)
  | [] => .ok []
  | first :: rest => do
      let text ← render level first
      let texts ← renderAll level rest
      .ok (text :: texts)

/-- The lines of the fields of an object at a nesting level. -/
def renderFields (level : Int) : List (String × Expr) → Except RenderError (List String)
  | [] => .ok []
  | (name, value) :: rest => do
      let text ← render (level + 1) value
      let lines ← renderFields level rest
      .ok (fieldLine level name text :: lines)

end

end Expr

end ZodSchemas
