import ZodSchemas.Data.Value
import ZodSchemas.Settings.Basic

namespace ZodSchemas.Encode

/-!
# Writing settings as document values

Every field is written under its document spelling.  What is written reads back
as the same settings.
-/

open Data

def client (client : Client) : Value :=
  .object [("provider", .text client.provider), ("output", .textOrNull client.output),
    ("moduleFormat", .textOrNull client.moduleFormat), ("runtime", .textOrNull client.runtime),
    ("importFileExtension", .textOrNull client.importExtension)]

def settings (settings : Settings) : Value :=
  .object [("output", .text settings.output), ("isGenerateSelect", .bool settings.emitsSelect),
    ("isGenerateInclude", .bool settings.emitsInclude), ("client", Encode.client settings.client),
    ("workers", .int settings.workers), ("cleanOutput", .bool settings.cleansOutput),
    ("writeManifest", .bool settings.writesManifest)]

end ZodSchemas.Encode
