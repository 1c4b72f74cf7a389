import ZodSchemas.Encode.Settings
import ZodSchemas.Text.CodePoint

namespace ZodSchemas.Encode

/-!
# Writing contexts as document values
-/

open Data

/-- Write a context, with all that follows from its fields. -/
def contextEntries (context : Context) : List (String × Value) :=
  [("outputPath", .text context.outputPath), ("provider", .text context.provider.label),
    ("client", client context.client), ("select", .bool context.emitsSelect),
    ("include", .bool context.emitsInclude),
    ("previewFeatures", .texts (Text.sorted context.previewFeatures)),
    ("enumNames", .texts (Text.sorted context.enumNames)),
    ("rawOpsMap",
      .list (context.rawOperations.map fun entry => .list [.text entry.1, .text entry.2])),
    ("schemasPath", .text context.schemasPath),
    ("customClient", .bool context.client.hasCustomOutput),
    ("newClient", .bool context.client.isNew), ("extension", .text context.importSuffix),
    ("skipDuplicates", .bool context.skipsDuplicates),
    ("relevance", .bool context.ordersByRelevance), ("repr", .text context.summary)]

end ZodSchemas.Encode
