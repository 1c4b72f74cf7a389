import ZodSchemas.Data.Moment
import ZodSchemas.Number.Shortest
import ZodSchemas.Text.Literal

namespace ZodSchemas.Data

/-!
# Document values

What a JSON or YAML document holds before it is read as metadata.  Keys of
mappings and members of sets are scalars by type, and a mapping keeps the order
of its entries: a repeated key keeps its first place and takes the last value.
-/

open ZodSchemas.Number

/-- A value without parts. -/
inductive Scalar where
  | null
  | bool (value : Bool)
  | int (value : Int)
  | double (value : Double)
  | text (value : String)
  | bytes (value : List UInt8)
  | moment (value : Moment)
deriving Repr, DecidableEq, Inhabited

/-- A document value; a pair is an entry of a list of entries. -/
inductive Value where
  | scalar (value : Scalar)
  | set (members : List Scalar)
  | pair (first second : Value)
  | list (items : List Value)
  | mapping (entries : List (Scalar × Value))
deriving Repr, BEq, Inhabited

/-- The entries of a mapping, in order. -/
abbrev Mapping := List (Scalar × Value)

namespace Scalar

/-- The integer a scalar counts as when it is compared with numbers. -/
def integer? : Scalar → Option Int
  | .bool value => some (if value then 1 else 0)
  | .int value => some value
  | .double value => value.toInt?
  | _ => none

/-- Whether two scalars are one key: numbers and truth values are compared by their value, and what
is no number by its identity. -/
def same (first second : Scalar) : Bool :=
  match first.integer?, second.integer? with
  | some firstValue, some secondValue => firstValue == secondValue
  | _, _ =>
      match first, second with
      | .double firstValue, .double secondValue =>
          firstValue.same secondValue || firstValue == secondValue
      | .moment firstValue, .moment secondValue => firstValue.same secondValue
      | _, _ => first == second

/-- One byte of a byte string literal enclosed in `mark`. -/
def byteLiteral (mark : Char) (byte : UInt8) : List Char :=
  let char := Char.ofNat byte.toNat
  if byte.toNat < 0x7F then Text.literalChar mark char
  else ['\x5c', 'x'] ++ Text.hexDigits 2 byte.toNat

/-- The form of a byte string inside a list or a mapping. -/
def bytesLiteral (bytes : List UInt8) : String :=
  let mark := Text.literalMark (String.ofList (bytes.map fun byte => Char.ofNat byte.toNat))
  String.ofList ('b' :: mark :: bytes.flatMap (byteLiteral mark) ++ [mark])

/-- The form of a scalar inside a list or a mapping. -/
def literal : Scalar → String
  | .null => "None"
  | .bool value => if value then "True" else "False"
  | .int value => toString value
  | .double value => value.text
  | .text value => Text.literal value
  | .bytes value => bytesLiteral value
  | .moment value => value.literal

end Scalar

/-- Set a key of entries: a key that is present keeps its place. -/
def insertEntry (key : Scalar) (value : α) : List (Scalar × α) → List (Scalar × α)
  | [] => [(key, value)]
  | (other, old) :: rest =>
      if other.same key then (other, value) :: rest else (other, old) :: insertEntry key value rest

namespace Mapping

/-- The value of the first entry whose key is the same. -/
def find? (mapping : Mapping) (key : Scalar) : Option Value :=
  (List.find? (fun entry => entry.1.same key) mapping).map (·.2)

/-- The value under a text key. -/
def get? (mapping : Mapping) (key : String) : Option Value :=
  find? mapping (.text key)

/-- Whether a text key is present. -/
def contains (mapping : Mapping) (key : String) : Bool :=
  (get? mapping key).isSome

def insert (mapping : Mapping) (key : Scalar) (value : Value) : Mapping :=
  insertEntry key value mapping

/-- Set a text key. -/
def put (mapping : Mapping) (key : String) (value : Value) : Mapping :=
  mapping.insert (.text key) value

/-- Set a text key unless it is present. -/
def putDefault (mapping : Mapping) (key : String) (value : Value) : Mapping :=
  if mapping.contains key then mapping else mapping.put key value

/-- Remove a text key. -/
def erase (mapping : Mapping) (key : String) : Mapping :=
  mapping.filter fun entry => !entry.1.same (.text key)

/-- The mapping that results from setting keys one after the other. -/
def ofEntries (entries : List (Scalar × Value)) : Mapping :=
  entries.foldl (fun mapping entry => mapping.insert entry.1 entry.2) []

/-- The mapping overlaid with the entries of another one. -/
def overlay (base overrides : Mapping) : Mapping :=
  overrides.foldl (fun mapping entry => mapping.insert entry.1 entry.2) base

end Mapping

namespace Value

@[match_pattern] def null : Value := .scalar .null

@[match_pattern] def text (value : String) : Value := .scalar (.text value)

@[match_pattern] def bool (value : Bool) : Value := .scalar (.bool value)

@[match_pattern] def int (value : Int) : Value := .scalar (.int value)

def texts (values : List String) : Value :=
  .list (values.map text)

/-- A text value, or null. -/
def textOrNull : Option String → Value
  | some value => text value
  | none => null

/-- A mapping with text keys. -/
def object (entries : List (String × Value)) : Value :=
  .mapping (entries.map fun entry => (.text entry.1, entry.2))

/-- The name under which messages mention the kind of a value. -/
def kindName : Value → String
  | .scalar .null => "NoneType"
  | .scalar (.bool _) => "bool"
  | .scalar (.int _) => "int"
  | .scalar (.double _) => "float"
  | .scalar (.text _) => "str"
  | .scalar (.bytes _) => "bytes"
  | .scalar (.moment (.day _)) => "date"
  | .scalar (.moment (.instant _ _)) => "datetime"
  | .set _ => "set"
  | .pair _ _ => "tuple"
  | .list _ => "list"
  | .mapping _ => "dict"

/-- Whether a value counts as absent: null, false, zero or empty. -/
def isVacant : Value → Bool
  | .scalar .null => true
  | .scalar (.bool value) => !value
  | .scalar (.int value) => value == 0
  | .scalar (.double value) => value.isZero
  | .scalar (.text value) => value.isEmpty
  | .scalar (.bytes value) => value.isEmpty
  | .scalar (.moment _) => false
  | .set members => members.isEmpty
  | .pair _ _ => false
  | .list items => items.isEmpty
  | .mapping entries => entries.isEmpty

/-- The value unless it counts as absent. -/
def orElse (value : Option Value) (other : Unit → Value) : Value :=
  match value with
  | some present => if present.isVacant then other () else present
  | none => other ()

/-- Whether a value cannot change, so that it may be looked up in a set. -/
def isFixed : Value → Bool
  | .scalar _ => true
  | .pair first second => first.isFixed && second.isFixed
  | _ => false

/-- Whether two values that cannot change are one member of a set. -/
def same : Value → Value → Bool
  | .scalar first, .scalar second => first.same second
  | .pair first second, .pair otherFirst otherSecond =>
      first.same otherFirst && second.same otherSecond
  | _, _ => false

/-- The parts of a value taken one by one: items, members, keys, code points or bytes. -/
def parts? : Value → Option (List Value)
  | .list items => some items
  | .set members => some (members.map .scalar)
  | .pair first second => some [first, second]
  | .mapping entries => some (entries.map fun entry => .scalar entry.1)
  | .scalar (.text value) =>
      some ((Text.codePoints value).map fun code => text (Text.ofCodePoints [code]))
  | .scalar (.bytes value) => some (value.map fun byte => int byte.toNat)
  | .scalar _ => none

def entries? : Value → Option Mapping
  | .mapping entries => some entries
  | _ => none

mutual

/-- The form of a value inside a list or a mapping. -/
def literal : Value → String
  | .scalar value => value.literal
  | .set members =>
      if members.isEmpty then "set()"
      else "\x7b" ++ ", ".intercalate (members.map Scalar.literal) ++ "\x7d"
  | .pair first second => "(" ++ literal first ++ ", " ++ literal second ++ ")"
  | .list items => "[" ++ ", ".intercalate (literals items) ++ "]"
  | .mapping entries => "\x7b" ++ ", ".intercalate (entryLiterals entries) ++ "\x7d"

/-- The forms of several values. -/
def literals : List Value → List String
  | [] => []
  | value :: rest => literal value :: literals rest

/-- The forms of the entries of a mapping. -/
def entryLiterals : List (Scalar × Value) → List String
  | [] => []
  | (key, value) :: rest => (key.literal ++ ": " ++ literal value) :: entryLiterals rest

end

mutual

/-- Whether lists and mappings lie inside one another on more than a number of levels. -/
def isDeeper : (levels : Nat) → Value → Bool
  | _, .scalar _ => false
  | 0, _ => true
  | _ + 1, .set _ => false
  | levels + 1, .pair first second => isDeeper levels first || isDeeper levels second
  | levels + 1, .list items => anyDeeper levels items
  | levels + 1, .mapping entries => anyEntryDeeper levels entries

/-- Whether one of several values is deeper than a number of levels. -/
def anyDeeper (levels : Nat) : List Value → Bool
  | [] => false
  | item :: rest => isDeeper levels item || anyDeeper levels rest

/-- Whether the value of an entry is deeper than a number of levels. -/
def anyEntryDeeper (levels : Nat) : List (Scalar × Value) → Bool
  | [] => false
  | (_, value) :: rest => isDeeper levels value || anyEntryDeeper levels rest

end

/-- A key of characters only. -/
def shownKey : Scalar → Scalar
  | .text name => .text (Text.withoutHalves name)
  | key => key

mutual

/-- The value with keys of characters only, of which the last one that is the same counts. -/
def withShownKeys : Value → Value
  | .list items => .list (itemsWithShownKeys items)
  | .mapping entries => .mapping (Mapping.ofEntries (entriesWithShownKeys entries))
  | value => value

/-- Several values with keys of characters only. -/
def itemsWithShownKeys : List Value → List Value
  | [] => []
  | item :: rest => withShownKeys item :: itemsWithShownKeys rest

/-- Entries with keys of characters only. -/
def entriesWithShownKeys : List (Scalar × Value) → List (Scalar × Value)
  | [] => []
  | (key, value) :: rest => (shownKey key, withShownKeys value) :: entriesWithShownKeys rest

end

/-- The form of a value that stands alone: a text is shown bare. -/
def display : Value → String
  | .scalar (.text value) => value
  | .scalar (.moment value) => value.textWith " "
  | value => value.literal

end Value

end ZodSchemas.Data
