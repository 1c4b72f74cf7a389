import ZodSchemas.Expr.Render
import ZodSchemas.SchemaUnit.Import
import ZodSchemas.Text.Layout
import ZodSchemas.Text.Literal
import ZodSchemas.Text.Utf8

namespace ZodSchemas

/-!
# Rendered modules

A module holds its imports, the shared validator for arbitrary JSON where it is
needed, and one exported definition.  Every module ends with one line feed; an
index without members is empty.
-/

/-- The text of a module and its path below the schemas directory. -/
structure RenderedFile where
  path : String
  content : String
deriving Repr, DecidableEq

namespace RenderedFile

/-- The number of lines. -/
def lineCount (file : RenderedFile) : Nat :=
  Text.lineCount file.content

/-- The number of bytes. -/
def size (file : RenderedFile) : Nat :=
  (Text.encodeUtf8 file.content).length

/-- The one-line form of a file. -/
def summary (file : RenderedFile) : String :=
  "<GeneratedFile " ++ file.path ++ " (" ++ toString file.lineCount ++ " lines)>"

end RenderedFile

/-- The definition of the shared validator for arbitrary JSON. -/
def jsonHelper : List String :=
  [
    "const literalSchema = z.union([z.string(), z.number(), z.boolean()]);",
    "const " ++ jsonSymbol ++ ": z.ZodType<Prisma.InputJsonValue> = z.lazy(() =>",
    indentation 1 ++ "z.union([",
    indentation 2 ++ "literalSchema,",
    indentation 2 ++ "z.array(" ++ jsonSymbol ++ ".nullable()),",
    indentation 2 ++ "z.record(z.string(), " ++ jsonSymbol ++ ".nullable()),",
    indentation 1 ++ "]),",
    ");"
  ]

/-- Lines, each ended by a line feed. -/
def joinLines (lines : List String) : String :=
  String.join (lines.map (· ++ "\n"))

namespace SchemaUnit

/-- The type annotation of an object's definition. -/
def annotationText (unit : SchemaUnit) : String :=
  match unit.hostType with
  | some name => if name.isEmpty then "" else ": z.ZodType<Prisma." ++ name ++ ">"
  | none => ""

/-- The lines that define and export a validator with the given text. -/
def definition (unit : SchemaUnit) (body : String) : List String :=
  if unit.kind = .object then
    ["const Schema" ++ unit.annotationText ++ " = " ++ body ++ ";", "",
      "export const " ++ unit.exportName ++ " = Schema;"]
  else
    ["export const " ++ unit.exportName ++ " = " ++ body ++ ";"]

/-- The lines of a module whose validator has the given text. -/
def moduleLines (workingDirectory : String) (context : Context) (unit : SchemaUnit)
    (body : String) : List String :=
  (unit.imports workingDirectory context).map Import.line ++ [""]
    ++ (if unit.usesJson then jsonHelper ++ [""] else [])
    ++ unit.definition body

/-- The module of a unit that is no index. -/
def renderModule (workingDirectory : String) (context : Context) (unit : SchemaUnit) :
    Except RenderError RenderedFile :=
  if unit.kind = .index then
    .error .indexUnit
  else
    match unit.expression with
    | none => .error (.noExpression unit.name)
    | some expression =>
        match expression.render 0 with
        | .error error => .error error
        | .ok body =>
            .ok ⟨unit.path, joinLines (unit.moduleLines workingDirectory context body)⟩

/-- The line that re-exports a module. -/
def exportLine (context : Context) (stem : String) : String :=
  "export * from '" ++ indexModule context stem ++ "';"

def renderIndex (context : Context) (unit : SchemaUnit) : Except RenderError RenderedFile :=
  if unit.kind = .index then
    .ok ⟨"index.ts", joinLines (unit.members.map (exportLine context))⟩
  else
    .error (.noIndexUnit unit.summary)

def render (workingDirectory : String) (context : Context) (unit : SchemaUnit) :
    Except RenderError RenderedFile :=
  if unit.kind = .index then unit.renderIndex context
  else unit.renderModule workingDirectory context

end SchemaUnit

/-- The sentence about an error. -/
def RenderError.message : RenderError → String
  | .foreignExpression className => "Unsupported expression node: " ++ className
  | .indexUnit => "Index units are rendered with render_index()."
  | .noExpression name => "Unit " ++ Text.literal name ++ " has no expression to render."
  | .noIndexUnit summary => summary ++ " is not an index unit."

end ZodSchemas
