import ZodSchemas.Decode.Assignment
import ZodSchemas.Encode.Context
import ZodSchemas.Encode.File
import ZodSchemas.Encode.Metadata

namespace ZodSchemas.Encode

/-!
# Writing assigned records as document values

Of fields that an object has replaced, those are written that the object has, as
they are there.  What follows from the fields cannot always be written then.
-/

open Data
open Decode

/-- Why a record cannot be written: an attribute is missing or is no record, a value has no parts,
or a text has halves of surrogate pairs where its size is asked for. -/
inductive HolderFault where
  | noAttribute
  | noParts
  | notUnicode
deriving Repr, DecidableEq

/-- Write the fields that an object has. -/
def replacedFields (names : List FieldName) (entries : Mapping) : List (String × Value) :=
  names.filterMap fun name => (entries.get? name.plain).map fun value => (name.document, value)

/-- Write fields, given how they are written as they were read. -/
def fields (names : List FieldName) (encode : α → Value) : Fields α → Value
  | .read record => encode record
  | .replaced entries => .object (replacedFields names entries)

def settingsPart : SettingsPart → Value
  | .plain value => value
  | .client fields => Encode.fields clientNames client fields

/-- Write settings that are held field by field. -/
def settingsParts (parts : List (String × SettingsPart)) : Value :=
  .object (settingsNames.filterMap fun name =>
    (parts.lookup name.plain).map fun part => (name.document, settingsPart part))

def textUnder? (entries : Mapping) (key : String) : Option String :=
  match entries.get? key with
  | some (.text value) => some value
  | _ => none

def optionalTextUnder? (entries : Mapping) (key : String) : Option (Option String) :=
  match entries.get? key with
  | some .null => some none
  | _ => (textUnder? entries key).map some

/-- The client of a context, all of whose attributes are asked for. -/
def clientOf? : Fields Client → Option Client
  | .read client => some client
  | .replaced entries => do
      some ⟨← textUnder? entries "provider", ← optionalTextUnder? entries "output",
        ← optionalTextUnder? entries "module_format", ← optionalTextUnder? entries "runtime",
        ← optionalTextUnder? entries "import_file_extension"⟩

/-- Write a context; replaced fields of a context have no provider with a label. -/
def context : Fields (Context × Fields Client) → Except HolderFault Value
  | .read (context, fields) =>
      match clientOf? fields with
      | some client => .ok (.object (contextEntries { context with client }))
      | none => .error .noAttribute
  | .replaced _ => .error .noAttribute

/-- The names of the enumerations in replaced fields, where an enumeration is no record. -/
def replacedEnumNames (entries : Mapping) : Except HolderFault (List String) :=
  match (entries.get? "enums").map Value.parts? with
  | none => .error .noAttribute
  | some none => .error .noParts
  | some (some []) => .ok []
  | some (some (_ :: _)) => .error .noAttribute

/-- Write a document, with the names of its enumerations. -/
def documentFields : Fields Metadata.Document → Except HolderFault Value
  | .read record => .ok (document record)
  | .replaced entries => do
      let names ← replacedEnumNames entries
      .ok (.object (replacedFields documentNames entries ++ [("enumNames", .texts names)]))

/-- Write a file, with its number of lines and its size. -/
def fileFields : Fields RenderedFile → Except HolderFault Value
  | .read file => if Text.isWhole file.content then .ok (renderedFile file) else .error .notUnicode
  | .replaced entries =>
      match textUnder? entries "content" with
      | none => .error .noAttribute
      | some content =>
          if Text.isWhole content then
            .ok (.object (replacedFields fileNames entries ++ measures content))
          else .error .notUnicode

/-- Write a record. -/
def holder : Holder → Except HolderFault Value
  | .settings parts => .ok (settingsParts parts)
  | .client fields => .ok (Encode.fields clientNames client fields)
  | .context fields => context fields
  | .document fields => documentFields fields
  | .alternative fields => .ok (Encode.fields alternativeNames alternative fields)
  | .file fields => fileFields fields

end ZodSchemas.Encode
