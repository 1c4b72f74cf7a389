import ZodSchemas.Text.CharClass
import ZodSchemas.Text.CodePoint
import ZodSchemas.Text.Identifier

namespace ZodSchemas.Text

/-!
# Literals in messages

Messages show names and paths between single quotes, or between double quotes
when the text holds a single quote and no double quote.  Characters without a
visible form, and halves of surrogate pairs, are written as escapes of two, four
or eight hexadecimal numerals.
-/

/-- One character of a literal enclosed in `mark`. -/
def literalChar (mark char : Char) : List Char :=
  if char = mark ∨ char = '\x5c' then ['\x5c', char]
  else if char = '\t' then ['\x5c', 't']
  else if char = '\n' then ['\x5c', 'n']
  else if char = '\r' then ['\x5c', 'r']
  else if char.toNat < 0x20 ∨ char.toNat = 0x7F then ['\x5c', 'x'] ++ hexDigits 2 char.toNat
  else if char.toNat < 0x7F ∨ isPrintable char then [char]
  else if char.toNat ≤ 0xFF then ['\x5c', 'x'] ++ hexDigits 2 char.toNat
  else if char.toNat ≤ 0xFFFF then ['\x5c', 'u'] ++ hexDigits 4 char.toNat
  else ['\x5c', 'U'] ++ hexDigits 8 char.toNat

/-- One code point of a literal enclosed in `mark`. -/
def literalCode (mark : Char) (code : Nat) : List Char :=
  if isHalf code then ['\x5c', 'u'] ++ hexDigits 4 code else literalChar mark (Char.ofNat code)

def literalMark (text : String) : Char :=
  if text.toList.contains '\x27' && !text.toList.contains '\x22' then '\x22' else '\x27'

def literal (text : String) : String :=
  let mark := literalMark text
  String.ofList (mark :: (codePoints text).flatMap (literalCode mark) ++ [mark])

def literalList (texts : List String) : String :=
  "[" ++ ", ".intercalate (texts.map literal) ++ "]"

end ZodSchemas.Text
