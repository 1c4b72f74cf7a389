import ZodSchemas.Text.Parts
import ZodSchemas.Yaml.Timestamp

namespace ZodSchemas.Yaml

/-!
# Tags

A tag says what kind of value a node has.  A plain scalar without a tag has the
one that its text suggests.  The patterns of texts are matched up to a line feed
at the end, which a block scalar may leave there.
-/

/-- The kind of value of a node. -/
inductive Tag where
  | null
  | truth
  | integer
  | double
  | bytes
  | moment
  | orderedMap
  | pairs
  | set
  | text
  | sequence
  | mapping
  | merge
  | value
  | unknown
deriving Repr, DecidableEq

namespace Tag

/-- What the full forms of the common tags start with. -/
def commonExpansion : String := "tag:yaml.org,2002:"

/-- The tags with a meaning by the last part of their full forms. -/
def common : List (String × Tag) :=
  [("null", .null), ("bool", .truth), ("int", .integer), ("float", .double), ("binary", .bytes),
    ("timestamp", .moment), ("omap", .orderedMap), ("pairs", .pairs), ("set", .set), ("str", .text),
    ("seq", .sequence), ("map", .mapping), ("merge", .merge), ("value", .value)]

/-- The tag with a full form. -/
def ofText (text : String) : Tag :=
  ((common.map fun entry => (commonExpansion ++ entry.1, entry.2)).lookup text).getD .unknown

/-- Words that stand for truth values. -/
def truthWords : List String :=
  ["yes", "Yes", "YES", "no", "No", "NO", "true", "True", "TRUE", "false", "False", "FALSE",
    "on", "On", "ON", "off", "Off", "OFF"]

def nullWords : List String :=
  ["~", "null", "Null", "NULL", ""]

def isDigitPart (char : Char) : Bool :=
  isDigit char || char == '_'

/-- The text without a sign. -/
def unsigned : List Char → List Char
  | '+' :: rest | '-' :: rest => rest
  | chars => chars

/-- Whether all characters are of a class, and there is one. -/
def isFilled (accepts : Char → Bool) (chars : List Char) : Bool :=
  !chars.isEmpty && chars.all accepts

/-- Whether a text starts with a digit and goes on with digits and underscores. -/
def isDigits : List Char → Bool
  | [] => false
  | first :: rest => isDigit first && rest.all isDigitPart

/-- Whether a text is a number below sixty in one or two digits. -/
def isSixtieth : List Char → Bool
  | [only] => isDigit only
  | [first, second] => '0' ≤ first && first ≤ '5' && isDigit second
  | _ => false

/-- Whether a text is an integer without a sign. -/
def isUnsignedInteger (chars : List Char) : Bool :=
  match chars with
  | [] => false
  | '0' :: 'b' :: digits => isFilled (fun char => char == '0' || char == '1' || char == '_') digits
  | '0' :: 'x' :: digits =>
      isFilled (fun char => isDigitPart char || ('a' ≤ char && char ≤ 'f')
        || ('A' ≤ char && char ≤ 'F')) digits
  | '0' :: digits => digits.all fun char => ('0' ≤ char && char ≤ '7') || char == '_'
  | _ =>
      match Text.partsAt ':' chars with
      | first :: sixtieths => isDigits first && sixtieths.all isSixtieth
      | [] => false

/-- Whether a text is an exponent, or empty. -/
def isExponent : List Char → Bool
  | [] => true
  | letter :: sign :: digits =>
      (letter == 'e' || letter == 'E') && (sign == '+' || sign == '-') && isFilled isDigit digits
  | _ => false

/-- Whether a text is a fraction behind its point, with an exponent or without one. -/
def isFraction (chars : List Char) : Bool :=
  isExponent (chars.dropWhile isDigitPart)

/-- Whether a text without a sign has a whole part, a point and a fraction. -/
def isUnsignedDouble (chars : List Char) : Bool :=
  let whole := chars.takeWhile (· != '.')
  match chars.drop whole.length with
  | _ :: fraction =>
      if whole.contains ':' then
        match Text.partsAt ':' whole with
        | first :: sixtieths =>
            isDigits first && sixtieths.all isSixtieth && fraction.all isDigitPart
        | [] => false
      else
        isDigits whole && isFraction fraction
  | [] => false

/-- Whether a text is a fraction that starts with its point. -/
def isPointed : List Char → Bool
  | '.' :: first :: rest => isDigit first && isFraction (first :: rest)
  | _ => false

/-- Whether a text is a number with a point. -/
def isDouble (chars : List Char) : Bool :=
  isUnsignedDouble (unsigned chars) || isPointed chars
    || [".inf", ".Inf", ".INF"].contains (String.ofList (unsigned chars))
    || [".nan", ".NaN", ".NAN"].contains (String.ofList chars)

/-- Whether a text is an integer. -/
def isInteger (chars : List Char) : Bool :=
  isUnsignedInteger (unsigned chars)

def suggested? (chars : List Char) : Option Tag :=
  let text := String.ofList chars
  if truthWords.contains text then some .truth
  else if isDouble chars then some .double
  else if isInteger chars then some .integer
  else if text = "<<" then some .merge
  else if nullWords.contains text then some .null
  else if suggestsTimestamp chars then some .moment
  else if text = "=" then some .value
  else if ["!", "&", "*"].contains text then some .unknown
  else none

/-- The tag of a plain scalar without a tag; a line feed at the end does not count. -/
def ofPlain (text : String) : Tag :=
  let shorter := dropFinalBreak text.toList
  if shorter.isEmpty ∧ !text.isEmpty then .text else (suggested? shorter).getD .text

end Tag

end ZodSchemas.Yaml
