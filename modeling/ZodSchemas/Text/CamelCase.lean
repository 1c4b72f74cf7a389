import ZodSchemas.Text.Case

namespace ZodSchemas.Text

/-!
# Camel case keys

The spelling under which a document writes the settings that this library
names with underscores.  A key that already is in camel case keeps its spelling.
-/

/-- A lower case letter of the Latin alphabet without accents. -/
def isPlainLower (char : Char) : Bool :=
  'a' ≤ char && char ≤ 'z'

/-- An upper case letter of the Latin alphabet without accents. -/
def isPlainUpper (char : Char) : Bool :=
  'A' ≤ char && char ≤ 'Z'

/-- One of the ten Arabic numerals. -/
def isPlainDigit (char : Char) : Bool :=
  '0' ≤ char && char ≤ '9'

/-- A letter or numeral without accents. -/
def isPlainAlphanumeric (char : Char) : Bool :=
  isPlainLower char || isPlainUpper char || isPlainDigit char

/-- The text without one line feed at its end. -/
def dropFinalLineFeed (chars : List Char) : List Char :=
  if chars.getLast? = some '\n' then chars.dropLast else chars

/-- Whether a numeral is directly followed by a lower case letter. -/
def hasDigitThenLower : List Char → Bool
  | first :: second :: rest =>
      (isPlainDigit first && isPlainLower second) || hasDigitThenLower (second :: rest)
  | _ => false

/-- Whether a key is a run of letters and numerals that starts with a lower case letter
and has no numeral directly before a lower case letter. -/
def isCamelCase (chars : List Char) : Bool :=
  match dropFinalLineFeed chars with
  | [] => false
  | first :: rest =>
      isPlainLower first && rest.all isPlainAlphanumeric && !hasDigitThenLower (first :: rest)

/-- Drop each underscore between a letter or numeral and a capital or numeral. -/
def joinWords : List Char → List Char
  | first :: '_' :: third :: rest =>
      if isPlainAlphanumeric first && (isPlainUpper third || isPlainDigit third) then
        first :: joinWords (third :: rest)
      else
        first :: joinWords ('_' :: third :: rest)
  | first :: rest => first :: joinWords rest
  | [] => []

/-- Lower the capital that ends a leading run of underscores. -/
def lowerFirstCapital (chars : List Char) : List Char :=
  match chars.dropWhile (· == '_') with
  | [] => chars
  | first :: rest =>
      if isPlainUpper first then
        chars.takeWhile (· == '_') ++ first.toLower :: rest
      else
        chars

def camelCase (key : String) : String :=
  if isCamelCase key.toList then
    key
  else
    String.ofList (lowerFirstCapital (joinWords (titleCase key).toList))

end ZodSchemas.Text
