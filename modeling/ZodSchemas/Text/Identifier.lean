namespace ZodSchemas.Text

/-!
# Identifiers and quoted strings of the generated language

An object key stands bare when it is an identifier and is a double-quoted
string otherwise.  The test for an identifier lets one line feed follow, so
such a key also stands bare.
-/

def isIdentifierStart (char : Char) : Bool :=
  ('A' ≤ char && char ≤ 'Z') || ('a' ≤ char && char ≤ 'z') || char == '_' || char == '$'

/-- A character that may continue an identifier. -/
def isIdentifierPart (char : Char) : Bool :=
  isIdentifierStart char || ('0' ≤ char && char ≤ '9')

/-- Whether the characters spell an identifier and nothing else. -/
def isStrictIdentifier : List Char → Bool
  | [] => false
  | first :: rest => isIdentifierStart first && rest.all isIdentifierPart

/-- Whether the characters spell an identifier, with at most one line feed after it. -/
def isIdentifierText (chars : List Char) : Bool :=
  isStrictIdentifier chars
    || (chars.getLast? == some '\n' && isStrictIdentifier chars.dropLast)

/-- Whether a name may stand bare as an object key. -/
def isIdentifier (name : String) : Bool :=
  isIdentifierText name.toList

/-- The lower case hexadecimal numeral of a value below sixteen. -/
def hexDigit (value : Nat) : Char :=
  if value < 10 then Char.ofNat (48 + value) else Char.ofNat (87 + value)

/-- A value in exactly `width` hexadecimal numerals. -/
def hexDigits (width value : Nat) : List Char :=
  (List.range width).reverse.map fun place => hexDigit (value / Nat.pow 16 place % 16)

/-- One character inside a double-quoted string. -/
def quotedChar (char : Char) : List Char :=
  if char = '\x22' then ['\x5c', '\x22']
  else if char = '\x5c' then ['\x5c', '\x5c']
  else if char = '\n' then ['\x5c', 'n']
  else if char = '\r' then ['\x5c', 'r']
  else if char = '\t' then ['\x5c', 't']
  else if char = '\x08' then ['\x5c', 'b']
  else if char = '\x0c' then ['\x5c', 'f']
  else if char.toNat < 0x20 then ['\x5c', 'u'] ++ hexDigits 4 char.toNat
  else [char]

/-- A double-quoted string; characters beyond ASCII stand as themselves. -/
def quoted (text : String) : String :=
  String.ofList ('\x22' :: text.toList.flatMap quotedChar ++ ['\x22'])

/-- An object key, quoted only where it is no identifier. -/
def objectKey (name : String) : String :=
  if isIdentifier name then name else quoted name

end ZodSchemas.Text
