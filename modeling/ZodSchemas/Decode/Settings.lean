import ZodSchemas.Decode.Record
import ZodSchemas.Settings.Basic

namespace ZodSchemas.Decode

/-!
# Reading settings

Settings, client and context refuse unknown keys.  The fields of a context have
their plain spelling only.
-/

open ZodSchemas.Data
open ZodSchemas.Metadata

/-- A text without the points at its front. -/
def dropLeadingPoints (text : String) : String :=
  String.ofList (text.toList.dropWhile (· == '.'))

/-- Read a text or null. -/
def optionalText : Value → Decoded (Option String) :=
  orNull text

/-- Read an import extension, without the points at its front. -/
def importExtension (value : Value) : Decoded (Option String) :=
  (optionalText value).map (·.map dropLeadingPoints)

def clientNames : List FieldName :=
  [.single "provider", .single "output", ⟨"moduleFormat", "module_format"⟩, .single "runtime",
    ⟨"importFileExtension", "import_file_extension"⟩]

def client : Value → Decoded Client :=
  closedRecord "ClientGeneratorConfig" clientNames fun entries =>
    Client.mk
      <$> optional (.single "provider") Client.default.provider text entries
      <*> optional (.single "output") none optionalText entries
      <*> optional ⟨"moduleFormat", "module_format"⟩ none optionalText entries
      <*> optional (.single "runtime") none optionalText entries
      <*> optional ⟨"importFileExtension", "import_file_extension"⟩ none importExtension entries

/-- Read a number of workers. -/
def workers : Value → Decoded Int :=
  integerWithin 1 64

def settingsNames : List FieldName :=
  [.single "output", ⟨"isGenerateSelect", "is_generate_select"⟩,
    ⟨"isGenerateInclude", "is_generate_include"⟩, .single "client", .single "workers",
    ⟨"cleanOutput", "clean_output"⟩, ⟨"writeManifest", "write_manifest"⟩]

def settingsRecord : String := "GeneratorConfig"

def settings : Value → Decoded Settings :=
  closedRecord settingsRecord settingsNames fun entries =>
    Settings.mk
      <$> optional (.single "output") Settings.default.output text entries
      <*> optional ⟨"isGenerateSelect", "is_generate_select"⟩ false boolean entries
      <*> optional ⟨"isGenerateInclude", "is_generate_include"⟩ false boolean entries
      <*> optional (.single "client") Client.default client entries
      <*> optional (.single "workers") 1 workers entries
      <*> optional ⟨"cleanOutput", "clean_output"⟩ false boolean entries
      <*> optional ⟨"writeManifest", "write_manifest"⟩ false boolean entries

def contextNames : List FieldName :=
  ["output_path", "provider", "client", "is_generate_select", "is_generate_include",
    "preview_features", "enum_names", "raw_ops_map"].map .single

def context : Value → Decoded Context :=
  closedRecord "GenerationContext" contextNames fun entries =>
    Context.mk
      <$> optional (.single "output_path") Context.default.outputPath text entries
      <*> optional (.single "provider") .postgresql (member Provider.all Provider.label) entries
      <*> optional (.single "client") Client.default client entries
      <*> optional (.single "is_generate_select") false boolean entries
      <*> optional (.single "is_generate_include") false boolean entries
      <*> optional (.single "preview_features") []
        (fun value => (textSet value).map distinct) entries
      <*> optional (.single "enum_names") [] (fun value => (textSet value).map distinct) entries
      <*> optional (.single "raw_ops_map") [] (dictionary text) entries

end ZodSchemas.Decode
