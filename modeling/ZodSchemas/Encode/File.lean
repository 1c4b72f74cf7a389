import ZodSchemas.Data.Value
import ZodSchemas.SchemaUnit.Render

namespace ZodSchemas.Encode

/-!
# Writing rendered files as document values
-/

open Data

/-- Write the number of lines of a content and its size. -/
def measures (content : String) : List (String × Value) :=
  [("line_count", .int (Text.lineCount content)),
    ("size_bytes", .int (Text.encodeUtf8 content).length)]

/-- Write a rendered file, with its number of lines and its size. -/
def renderedFile (file : RenderedFile) : Value :=
  .object ([("path", .text file.path), ("content", .text file.content)] ++ measures file.content)

end ZodSchemas.Encode
