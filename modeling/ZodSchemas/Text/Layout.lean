import ZodSchemas.Text.CodePoint

namespace ZodSchemas.Text

/-!
# Lines, columns and grouped numbers

The line count of a text, the reading of line breaks, and the two column
layouts that reports use.
-/

/-- The number of lines; a line feed at the end starts no further line. -/
def lineCount (text : String) : Nat :=
  let chars := text.toList
  match chars.getLast? with
  | none => 0
  | some last => chars.count '\n' + if last = '\n' then 0 else 1

/-- Each carriage return, with the line feed that may follow it, as one line feed. -/
def unifyBreaks : List Char → List Char
  | '\r' :: '\n' :: rest => '\n' :: unifyBreaks rest
  | '\r' :: rest => '\n' :: unifyBreaks rest
  | char :: rest => char :: unifyBreaks rest
  | [] => []

/-- A text followed by blanks up to a width in code points. -/
def padRight (columns : Nat) (text : String) : String :=
  text ++ String.ofList (List.replicate (columns - width text) ' ')

/-- A text preceded by blanks up to a width in code points. -/
def padLeft (columns : Nat) (text : String) : String :=
  String.ofList (List.replicate (columns - width text) ' ') ++ text

/-- Put a comma before every third character, counted from the end of a reversed numeral. -/
def groupReversed : List Char → List Char
  | first :: second :: third :: next :: rest =>
      first :: second :: third :: ',' :: groupReversed (next :: rest)
  | chars => chars

/-- The numerals at the front with a comma between groups of three, and what follows them. -/
def groupLeading (chars : List Char) : List Char :=
  (groupReversed (chars.takeWhile Char.isDigit).reverse).reverse ++ chars.dropWhile Char.isDigit

/-- A number in decimal notation with a comma between groups of three numerals before its point. -/
def groupedDecimal (decimal : String) : String :=
  match decimal.toList with
  | '-' :: rest => String.ofList ('-' :: groupLeading rest)
  | chars => String.ofList (groupLeading chars)

/-- An integer with a comma between groups of three numerals. -/
def grouped (number : Int) : String :=
  groupedDecimal (toString number)

end ZodSchemas.Text
