import ZodSchemas.Data.Value
import ZodSchemas.Decode.Decoded
import ZodSchemas.Number.Numeral
import ZodSchemas.Text.Utf8

namespace ZodSchemas.Decode

/-!
# Reading values without fields

Texts, truth values, integers, members of a vocabulary and lists.  The rules are
lenient where a document could mean only one thing: a truth value may be spelled
as a word or a number, an integer as a text, a list as a set.
-/

open ZodSchemas.Data
open ZodSchemas.Number

/-- The text that bytes encode, if they are UTF-8. -/
def textOfBytes? (bytes : List UInt8) : Option String :=
  (Text.decodeUtf8 bytes).toOption.map Text.ofChars

/-- Read a text, which may have halves of surrogate pairs; bytes count as a text when they are
UTF-8. -/
def text : Value → Decoded String
  | .scalar (.text value) => .accepted value
  | .scalar (.bytes value) =>
      match textOfBytes? value with
      | some text => .accepted text
      | none => .refuse .notUnicode
  | _ => .refuse .notText

/-- Go on with a text that has characters only. -/
def wholeText (decode : String → Decoded α) (text : String) : Decoded α :=
  if Text.isWhole text then decode text else .refuse .notUnicode

/-- Read a text of characters that is not empty. -/
def filledText (value : Value) : Decoded String :=
  (text value).andThen (wholeText fun text =>
    if text.isEmpty then .refuse .emptyText else .accepted text)

/-- Read null as nothing. -/
def orNull (decode : Value → Decoded α) : Value → Decoded (Option α)
  | .scalar .null => .accepted none
  | value => (decode value).map some

/-- Read the spelling of a member of a vocabulary. -/
def memberNamed (all : List α) (label : α → String) (name : String) : Decoded α :=
  match all.find? (label · == name) with
  | some found => .accepted found
  | none => .refuse (.notMember (all.map label))

/-- Read a member of a vocabulary by its exact spelling. -/
def member (all : List α) (label : α → String) (value : Value) : Decoded α :=
  match text value with
  | .accepted name => wholeText (memberNamed all label) name
  | _ => .refuse (.notMember (all.map label))

def falseWords : List String :=
  ["0", "off", "f", "false", "n", "no"]

def trueWords : List String :=
  ["1", "on", "t", "true", "y", "yes"]

/-- Read a word as a truth value, in either case. -/
def booleanWord (word : String) : Decoded Bool :=
  let lowered := String.ofList (word.toList.map Char.toLower)
  if falseWords.contains lowered then .accepted false
  else if trueWords.contains lowered then .accepted true
  else .refuse .unreadableBoolean

/-- Whether a number is one of sixty-four bits. -/
def fitsWord (number : Int) : Bool :=
  -0x8000000000000000 ≤ number && number < 0x8000000000000000

/-- Read a number as a truth value; numbers beyond sixty-four bits are none. -/
def booleanNumber (number : Int) : Decoded Bool :=
  if number = 0 then .accepted false
  else if number = 1 then .accepted true
  else if fitsWord number then .refuse .unreadableBoolean
  else .refuse .notBoolean

/-- Read a double as an integer: it has to be one, strictly inside the range of sixty-four bits. -/
def integerDouble (value : Double) : Decoded Int :=
  if !value.isFinite then .refuse .notFinite
  else
    match value.toInt? with
    | none => .refuse .fractionalInteger
    | some number =>
        if fitsWord number && number != -0x8000000000000000 then .accepted number
        else .refuse .oversizedInteger

/-- Read a truth value. -/
def boolean : Value → Decoded Bool
  | .scalar (.bool value) => .accepted value
  | .scalar (.int value) => booleanNumber value
  | .scalar (.double value) =>
      match integerDouble value with
      | .accepted number => booleanNumber number
      | _ => .refuse .notBoolean
  | .scalar (.text word) => wholeText booleanWord word
  | .scalar (.bytes value) =>
      match textOfBytes? value with
      | some word => booleanWord word
      | none => .refuse .unreadableBoolean
  | _ => .refuse .notBoolean

/-- Whether a character is one of the ten numerals. -/
def isNumeral (char : Char) : Bool :=
  '0' ≤ char && char ≤ '9'

/-- The text behind the zeros and underscores at its front, when a digit other than zero or a minus
sign follows them; the last zero stays before a point, and of zeros alone the last character
stays. -/
def dropLeadingZeros (chars : List Char) : Option (List Char) :=
  match chars with
  | '0' :: rest =>
      let skipped := rest.takeWhile fun char => char == '0' || char == '_'
      match rest.drop skipped.length with
      | [] => some [('0' :: skipped).getLast?.getD '0']
      | char :: behind =>
          if isNumeral char || char == '-' then some (char :: behind)
          else if char = '.' then some (('0' :: skipped).getLast?.getD '0' :: char :: behind)
          else none
  | char :: _ => if isNumeral char then some chars else none
  | [] => none

/-- The text without a point and the zeros behind it, of which there is at least one. -/
def dropZeroFraction (chars : List Char) : List Char :=
  let whole := chars.takeWhile (· != '.')
  match chars.drop whole.length with
  | '.' :: zero :: zeros => if (zero :: zeros).all (· == '0') then whole else chars
  | _ => chars

/-- Whether underscores stand only between other characters and one at a time. -/
def hasSingleUnderscores : List Char → Bool
  | [] => true
  | ['_'] => false
  | '_' :: '_' :: _ => false
  | _ :: rest => hasSingleUnderscores rest

/-- The text without underscores, which have to stand between other characters. -/
def dropUnderscores? (chars : List Char) : Option (List Char) :=
  if chars.head? = some '_' || !hasSingleUnderscores chars then none
  else some (chars.filter (· != '_'))

/-- The text of an integer without blanks around it, a plus sign, zeros at its front, a fraction of
zeros and underscores. -/
def bareInteger? (word : String) : Option (List Char) :=
  let (sign, unsigned) :=
    match trimBlanks word.toList with
    | '-' :: rest => (['-'], rest)
    | '+' :: rest => ([], rest)
    | chars => ([], chars)
  ((dropLeadingZeros unsigned).bind fun chars => dropUnderscores? (dropZeroFraction chars)).map
    (sign ++ ·)

/-- The most characters, a minus sign included, that the text of an integer may have. -/
def integerWidth : Nat := 4300

/-- The number that numerals spell. -/
def numberOf (digits : List Char) : Nat :=
  digits.foldl (fun value digit => value * 10 + (digit.toNat - 48)) 0

/-- Read a text that is an integer and nothing else: it is too long if more than so many characters
belong to the integer at its front, whatever follows. -/
def exactInteger (chars : List Char) : Except Cause Int :=
  let negative := chars.head? == some '-'
  let unsigned := if negative then chars.drop 1 else chars
  let digits := unsigned.takeWhile isNumeral
  if digits.isEmpty || (digits.head? == some '0' && 1 < digits.length) then
    .error .unreadableInteger
  else if integerWidth < digits.length + (if negative then 1 else 0) then
    .error .oversizedInteger
  else if digits.length < unsigned.length then
    .error .unreadableInteger
  else
    .ok (if negative then -(numberOf digits : Int) else numberOf digits)

/-- Read a text as an integer, as it stands or else by its bare text. -/
def integerWord (word : String) : Decoded Int :=
  match exactInteger word.toList with
  | .ok value => .accepted value
  | .error .oversizedInteger => .refuse .oversizedInteger
  | .error _ =>
      match (bareInteger? word).map exactInteger with
      | some (.ok value) => .accepted value
      | _ => .refuse .unreadableInteger

def integer : Value → Decoded Int
  | .scalar (.bool value) => .accepted (if value then 1 else 0)
  | .scalar (.int value) => .accepted value
  | .scalar (.double value) => integerDouble value
  | .scalar (.text word) => wholeText integerWord word
  | .scalar (.bytes value) =>
      match textOfBytes? value with
      | some word => integerWord word
      | none => .refuse .unreadableInteger
  | _ => .refuse .notInteger

/-- Read an integer between two bounds. -/
def integerWithin (least greatest : Int) (value : Value) : Decoded Int :=
  (integer value).check fun number =>
    if number < least then some (.below least)
    else if greatest < number then some (.above greatest)
    else none

/-- Read the items of a list, with their places counted from a position. -/
def itemsFrom (decode : Value → Decoded α) : Nat → List Value → List (Decoded α)
  | _, [] => []
  | position, item :: rest =>
      (decode item).below (.index position) :: itemsFrom decode (position + 1) rest

/-- Read a list; a set or a pair counts as one. -/
def list (decode : Value → Decoded α) : Value → Decoded (List α)
  | .list items => Decoded.all (itemsFrom decode 0 items)
  | .set members => Decoded.all (itemsFrom decode 0 (members.map .scalar))
  | .pair first second => Decoded.all (itemsFrom decode 0 [first, second])
  | _ => .refuse .notList

/-- Read a set of texts from a list, a set or a pair. -/
def textSet : Value → Decoded (List String)
  | .list items => Decoded.all (itemsFrom text 0 items)
  | .set members => Decoded.all (itemsFrom text 0 (members.map .scalar))
  | .pair first second => Decoded.all (itemsFrom text 0 [first, second])
  | _ => .refuse .notTextSet

end ZodSchemas.Decode
