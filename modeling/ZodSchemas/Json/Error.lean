namespace ZodSchemas.Json

/-!
# Faults in JSON texts

A fault names its cause and the place it was found at, counted in characters.
`Fault.message` adds the line and the column of that place.
-/

/-- Why a text is no JSON document. -/
inductive Cause where
  | byteOrderMark
  | missingValue
  | missingKey
  | missingColon
  | missingComma
  | trailingText
  | unknownEscape
  | brokenUnicodeEscape
  | controlCharacter
  | unclosedString
  | oversizedInteger (digits : Nat)
  | tooDeep
deriving Repr, DecidableEq

/-- A cause and the number of characters before it. -/
structure Fault where
  cause : Cause
  position : Nat
deriving Repr, DecidableEq

/-- The most digits an integer may be written with. -/
def digitLimit : Nat := 4300

/-- The sentence about an integer with too many digits. -/
def oversizedMessage (digits : Nat) : String :=
  "Exceeds the limit (" ++ toString digitLimit ++ " digits) for integer string conversion: "
    ++ "value has " ++ toString digits
    ++ " digits; use sys.set_int_max_str_digits() to increase the limit"

/-- The sentence about a cause. -/
def Cause.message : Cause → String
  | .byteOrderMark => "Unexpected UTF-8 BOM (decode using utf-8-sig)"
  | .missingValue => "Expecting value"
  | .missingKey => "Expecting property name enclosed in double quotes"
  | .missingColon => "Expecting ':' delimiter"
  | .missingComma => "Expecting ',' delimiter"
  | .trailingText => "Extra data"
  | .unknownEscape => "Invalid \\escape"
  | .brokenUnicodeEscape => "Invalid \\uXXXX escape"
  | .controlCharacter => "Invalid control character at"
  | .unclosedString => "Unterminated string starting at"
  | .oversizedInteger digits => oversizedMessage digits
  | .tooDeep => "Lists and objects lie too deep inside one another"

/-- Whether the fault lies in the form of the text, and not in the size of a number or the depth of
a value. -/
def Fault.isSyntactic (fault : Fault) : Bool :=
  match fault.cause with
  | .oversizedInteger _ | .tooDeep => false
  | _ => true

/-- The line of a position, counted from one. -/
def lineAt (chars : List Char) (position : Nat) : Nat :=
  (chars.take position).count '\n' + 1

/-- The column of a position, counted from one. -/
def columnAt (chars : List Char) (position : Nat) : Nat :=
  ((chars.take position).reverse.takeWhile (· != '\n')).length + 1

/-- The message about a fault of a text. -/
def Fault.message (chars : List Char) (fault : Fault) : String :=
  if fault.isSyntactic then
    fault.cause.message ++ ": line " ++ toString (lineAt chars fault.position)
      ++ " column " ++ toString (columnAt chars fault.position)
      ++ " (char " ++ toString fault.position ++ ")"
  else
    fault.cause.message

end ZodSchemas.Json
