import ZodSchemas.Decode.File
import ZodSchemas.Decode.Metadata
import ZodSchemas.Decode.Settings
import ZodSchemas.Text.Parts

namespace ZodSchemas.Decode

/-!
# Assigning attributes

Only the fields of settings may be assigned one by one, and the value is read as
in a document.  All other records are frozen, a client inside another record
included.  The fields of any record can be replaced together by an object, whose
values are not read.  Names that start with an underscore are private to the
record and do not show, and neither does what is assigned inside a member of a
vocabulary; a few names say something about the record itself and are fixed.
-/

open Data
open Metadata

/-- The fields of a record: as they were read, or the object that has replaced them. -/
inductive Fields (α : Type) where
  | read (record : α)
  | replaced (entries : Mapping)
deriving Repr, BEq

/-- What a field of settings holds. -/
inductive SettingsPart where
  | plain (value : Value)
  | client (client : Fields Client)
deriving Repr, BEq

/-- A record whose attributes are assigned; settings are held field by field under their plain
spelling, and a context with the fields of its client. -/
inductive Holder where
  | settings (parts : List (String × SettingsPart))
  | client (client : Fields Client)
  | context (context : Fields (Context × Fields Client))
  | document (document : Fields Document)
  | alternative (alternative : Fields TypeAlternative)
  | file (file : Fields RenderedFile)
deriving Repr, BEq

/-- The fields of settings, held one by one. -/
def settingsParts (settings : Settings) : List (String × SettingsPart) :=
  [("output", .plain (.text settings.output)),
    ("is_generate_select", .plain (.bool settings.emitsSelect)),
    ("is_generate_include", .plain (.bool settings.emitsInclude)),
    ("client", .client (.read settings.client)), ("workers", .plain (.int settings.workers)),
    ("clean_output", .plain (.bool settings.cleansOutput)),
    ("write_manifest", .plain (.bool settings.writesManifest))]

/-- Why an attribute is not assigned: its value is not accepted, there is nothing to assign it in,
it says what the record is, or its name has halves of surrogate pairs. -/
inductive AssignmentFault where
  | refused (issues : List Issue)
  | noHolder
  | wrongKind
  | notUnicode
deriving Repr, DecidableEq

/-! ## Attributes -/

/-- What an attribute of a record is. -/
inductive Attribute where
  | plain
  | member
  | record (holder : Holder)
deriving Repr, BEq

/-- The attribute of a name among fields that hold plain values. -/
def plainAttribute? (names : List FieldName) (name : String) : Option Attribute :=
  if names.any (·.plain == name) then some .plain else none

/-- The attribute of a name, given how it is found as long as the fields are as they were read. -/
def Fields.attribute? (find? : α → Option Attribute) (name : String) :
    Fields α → Option Attribute
  | .read record => find? record
  | .replaced entries => if entries.contains name then some .plain else none

def SettingsPart.attribute : SettingsPart → Attribute
  | .plain _ => .plain
  | .client fields => .record (.client fields)

namespace Holder

/-- The attribute of a record under a name. -/
def attribute? (holder : Holder) (name : String) : Option Attribute :=
  match holder with
  | .settings parts => (parts.lookup name).map SettingsPart.attribute
  | .client fields => fields.attribute? (fun _ => plainAttribute? clientNames name) name
  | .context fields =>
      fields.attribute? (fun (_, inner) =>
        if name = "client" then some (.record (.client inner))
        else if name = "provider" then some .member
        else plainAttribute? contextNames name) name
  | .document fields =>
      fields.attribute? (fun _ =>
        if name = "provider" then some .member else plainAttribute? documentNames name) name
  | .alternative fields =>
      fields.attribute? (fun _ =>
        if name = "location" then some .member else plainAttribute? alternativeNames name) name
  | .file fields => fields.attribute? (fun _ => plainAttribute? fileNames name) name

/-- Put a client in place of the one inside a record. -/
def withInner (holder inner : Holder) : Holder :=
  match holder, inner with
  | .settings parts, .client fields => .settings (insertNamed parts "client" (.client fields))
  | .context (.read (record, _)), .client fields => .context (.read (record, fields))
  | other, _ => other

/-- Put an object in place of the fields of a record. -/
def withFields (holder : Holder) (entries : Mapping) : Holder :=
  match holder with
  | .settings _ =>
      .settings (entries.filterMap fun entry =>
        match entry.1 with
        | .text name => some (name, .plain entry.2)
        | _ => none)
  | .client _ => .client (.replaced entries)
  | .context _ => .context (.replaced entries)
  | .document _ => .document (.replaced entries)
  | .alternative _ => .alternative (.replaced entries)
  | .file _ => .file (.replaced entries)

end Holder

/-! ## Names -/

def isPrivate (name : String) : Bool :=
  name.toList.head? == some '_'

/-- The private names that say something about a record, and cannot be assigned. -/
def fixedPrivateNames : List String :=
  ["__fields__", "__fields_set__", "__weakref__"]

/-- The names that say something about settings, and cannot be assigned. -/
def fixedSettingsNames : List String :=
  ["model_extra", "model_fields_set"]

/-- The names that say something about a member, and cannot be assigned. -/
def fixedMemberNames : List String :=
  ["name", "value", "__weakref__"]

/-- The name that says what a record, a member or a plain value is. -/
def kindAttribute : String := "__class__"

/-- The name that holds all fields of a record or a member. -/
def fieldsAttribute : String := "__dict__"

/-! ## Assignment -/

/-- Read the value of a field of settings. -/
def settingsPart (name : String) (value : Value) : Decoded SettingsPart :=
  match name with
  | "output" => (text value).map fun output => .plain (.text output)
  | "workers" => (workers value).map fun workers => .plain (.int workers)
  | "client" => (client value).map fun client => .client (.read client)
  | "is_generate_select" | "is_generate_include" | "clean_output" | "write_manifest" =>
      (boolean value).map fun flag => .plain (.bool flag)
  | other => .refuse (.noAttribute other)

/-- The outcome of reading a value. -/
def settle : Decoded α → Except AssignmentFault α
  | .accepted value => .ok value
  | .rejected issues => .error (.refused issues)
  | .interrupted => .error .noHolder

/-- Replace the fields of a record by an object. -/
def replaceFields (holder : Holder) (value : Value) : Except AssignmentFault Holder :=
  match value with
  | .mapping entries => .ok (holder.withFields entries)
  | _ => .error .wrongKind

def assignField (holder : Holder) (name : String) (value : Value) :
    Except AssignmentFault Holder :=
  if name = kindAttribute then .error .wrongKind
  else if name = fieldsAttribute then replaceFields holder value
  else if fixedPrivateNames.contains name then .error .noHolder
  else if isPrivate name then .ok holder
  else
    match holder with
    | .settings parts =>
        if fixedSettingsNames.contains name then .error .noHolder
        else if !Text.isWhole name then .error .notUnicode
        else
          (settle ((settingsPart name value).below (.key name))).map fun part =>
            .settings (insertNamed parts name part)
    | .client _ | .context _ | .document _ | .alternative _ | .file _ =>
        .error (.refused [⟨.frozen, [.key (Text.withoutHalves name)]⟩])

/-- The fault of an assignment along a path that starts in a plain value. -/
def plainFault (path : List String) : AssignmentFault :=
  if path = [kindAttribute] then .wrongKind else .noHolder

/-- Assign along a path that starts in a member, whose name and value are fixed and plain. -/
def assignInMember (path : List String) (value : Value) : Except AssignmentFault Unit :=
  match path with
  | [] => .error .noHolder
  | [name] =>
      if name = kindAttribute then .error .wrongKind
      else if name = fieldsAttribute ∧ value.entries?.isNone then .error .wrongKind
      else if fixedMemberNames.contains name then .error .noHolder
      else .ok ()
  | name :: rest =>
      .error (if name = "name" ∨ name = "value" then plainFault rest else .noHolder)

/-- Assign along a path that starts in a record. -/
def assignAlong (holder : Holder) (path : List String) (value : Value) :
    Except AssignmentFault Holder :=
  match path with
  | [] => .error .noHolder
  | [name] => assignField holder name value
  | name :: rest =>
      match holder.attribute? name with
      | none => .error .noHolder
      | some .plain => .error (plainFault rest)
      | some .member => (assignInMember rest value).map fun _ => holder
      | some (.record inner) => (assignAlong inner rest value).map holder.withInner

/-- Assign an attribute of a record; points stand between the names that lead to it. -/
def assign (holder : Holder) (path : String) (value : Value) :
    Except AssignmentFault Holder :=
  assignAlong holder ((Text.partsAt '.' path.toList).map String.ofList) value

end ZodSchemas.Decode
