import ZodSchemas.Check.Finding
import ZodSchemas.Settings.Basic
import ZodSchemas.Text.Literal

namespace ZodSchemas.Check

/-!
# Checks of the settings

A module format that the client does not know is an error.  Settings that have
no effect on the document at hand earn a remark.
-/

open ZodSchemas.Metadata

def moduleFormats : List String :=
  ["cjs", "esm"]

def moduleFormat (client : Client) : Findings :=
  match client.moduleFormat with
  | some format =>
      if moduleFormats.contains format then []
      else
        [.error "MODULE_FORMAT_INVALID"
          ("Client module format '" ++ format ++ "' is not one of "
            ++ Text.literalList moduleFormats ++ ".")
          [("module_format", format)]]
  | none => []

/-- The remark on an import extension without effect. -/
def importExtension (client : Client) : Findings :=
  match client.importExtension with
  | some extension =>
      if extension.isEmpty ∨ client.moduleFormat = some "esm" then []
      else
        [.info "IMPORT_EXTENSION_UNUSED"
          "importFileExtension only applies to the esm module format."
          [("import_file_extension", extension)]]
  | none => []

/-- The remark on text search for a provider without it. -/
def textSearch (document : Document) : Findings :=
  if document.previewFeatures.contains fullTextSearchFeature
      && !document.provider.searchesFullText then
    [.info "FULL_TEXT_SEARCH_UNUSED"
      ("fullTextSearch has no effect on orderBy for provider '" ++ document.provider.label ++ "'.")
      []]
  else
    []

/-- The remark on the inclusion of relations that do not exist. -/
def inclusion (settings : Settings) (document : Document) : Findings :=
  if settings.emitsInclude && !document.models.any Model.hasRelation then
    [.info "INCLUDE_WITHOUT_RELATIONS" "Include emission is on but no model has a relation." []]
  else
    []

def settings (settings : Settings) (document : Document) : Findings :=
  moduleFormat settings.client ++ importExtension settings.client ++ textSearch document
    ++ inclusion settings document

end ZodSchemas.Check
