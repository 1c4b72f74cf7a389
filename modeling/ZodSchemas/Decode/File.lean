import ZodSchemas.Decode.Record
import ZodSchemas.SchemaUnit.Render

namespace ZodSchemas.Decode

/-!
# Reading rendered files

A rendered file has a path and a content.  Unknown keys are refused.
-/

def fileNames : List FieldName :=
  [.single "path", .single "content"]

def renderedFile : Data.Value → Decoded RenderedFile :=
  closedRecord "GeneratedFile" fileNames fun entries =>
    RenderedFile.mk
      <$> required (.single "path") filledText entries
      <*> required (.single "content") text entries

end ZodSchemas.Decode
