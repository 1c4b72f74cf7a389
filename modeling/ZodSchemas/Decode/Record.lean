import ZodSchemas.Decode.Plain

namespace ZodSchemas.Decode

/-!
# Reading records

A field has a document spelling and a plain spelling with underscores.  Either
is accepted; when both are present the document spelling counts, and the plain
one is an unknown key.  Issues name the spelling that was found, and the document
spelling of a field that is missing.  A closed record refuses unknown keys.
-/

open ZodSchemas.Data

/-- The two spellings of a field. -/
structure FieldName where
  document : String
  plain : String
deriving Repr, DecidableEq

def FieldName.single (name : String) : FieldName :=
  ⟨name, name⟩

/-- The value of a field, with the spelling it was found under. -/
def FieldName.find? (name : FieldName) (entries : Mapping) : Option (String × Value) :=
  match entries.get? name.document with
  | some value => some (name.document, value)
  | none => (entries.get? name.plain).map fun value => (name.plain, value)

/-- Read a field that must be present. -/
def required (name : FieldName) (decode : Value → Decoded α) (entries : Mapping) : Decoded α :=
  match name.find? entries with
  | some (spelling, value) => (decode value).below (.key spelling)
  | none => .rejected [⟨.missing, [.key name.document]⟩]

/-- Read a field that may be absent. -/
def optional (name : FieldName) (absent : α) (decode : Value → Decoded α) (entries : Mapping) :
    Decoded α :=
  match name.find? entries with
  | some (spelling, value) => (decode value).below (.key spelling)
  | none => .accepted absent

/-- The most digits with which an integer is shown. -/
def shownDigits : Nat := 4300

/-- The form of an integer that is too large for a place: one that is far too large is not shown. -/
def integerText (value : Int) : String :=
  if shownDigits < (toString value.natAbs).length then "<unprintable int object>"
  else toString value

/-- The step to an entry: integers of sixty-four bits are places, and a text shows no halves of
surrogate pairs. -/
def keyStep : Scalar → Step
  | .text name => .key (Text.withoutHalves name)
  | .int value => if fitsWord value then .index value else .key (integerText value)
  | .bool value => .index (if value then 1 else 0)
  | key => .key key.literal

/-- The issue about an entry that no field has used. -/
def unknownIssue? (used : List String) (key : Scalar) : Option Issue :=
  match key with
  | .text name => if used.contains name then none else some ⟨.unknownKey, [.key name]⟩
  | _ => some ⟨.keyNotText, [keyStep key]⟩

/-- Reject every entry that no field has used. -/
def known (names : List FieldName) (entries : Mapping) : Decoded Unit :=
  let used := names.filterMap fun name => (name.find? entries).map (·.1)
  match entries.filterMap fun entry => unknownIssue? used entry.1 with
  | [] => .accepted ()
  | issues => .rejected issues

def record (name : String) (decode : Mapping → Decoded α) : Value → Decoded α
  | .mapping entries => decode entries
  | _ => .refuse (.notRecord name)

/-- Whether a key can be told from the names of fields. -/
def isNameable : Scalar → Bool
  | .text name => Text.isWhole name
  | _ => true

/-- Read a mapping as a closed record with some fields; a key with halves of surrogate pairs is the
only issue then. -/
def closedRecord (name : String) (names : List FieldName) (decode : Mapping → Decoded α) :
    Value → Decoded α :=
  record name fun entries =>
    if entries.all fun entry => isNameable entry.1 then
      (fun record (_ : Unit) => record) <$> decode entries <*> known names entries
    else
      .refuse .notUnicode

/-- Set a text key of entries: a key that is present keeps its place. -/
def insertNamed (entries : List (String × α)) (key : String) (value : α) : List (String × α) :=
  if entries.any (·.1 == key) then
    entries.map fun entry => if entry.1 == key then (key, value) else entry
  else entries ++ [(key, value)]

/-- Read the values of a mapping under text keys; of two keys that are the same text the second one
counts. -/
def dictionary (decode : Value → Decoded α) : Value → Decoded (List (String × α))
  | .mapping entries =>
      (Decoded.all (entries.map fun (key, value) =>
        Prod.mk <$> ((text (.scalar key)).below (.key "[key]")).below (keyStep key)
          <*> (decode value).below (keyStep key))).map
        fun named => named.foldl (fun entries entry => insertNamed entries entry.1 entry.2) []
  | _ => .refuse .notMapping

end ZodSchemas.Decode
