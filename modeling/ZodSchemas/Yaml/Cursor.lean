namespace ZodSchemas.Yaml

/-!
# Places in a text

A cursor is a place in a text with the characters behind it.  A line ends at a
line feed, a next-line character or one of the two separators; other line breaks
have been unified before.  A byte order mark takes no column.
-/

/-- Stands for the end of the text; the character itself occurs in no text. -/
def endMark : Char := '\x00'

/-- A character that ends a line. -/
def isBreak (char : Char) : Bool :=
  char == '\n' || char == '\x85' || char == '\u2028' || char == '\u2029'

/-- The end of a line or of the text. -/
def isBreakOrEnd (char : Char) : Bool :=
  char == endMark || isBreak char

/-- A blank, the end of a line or of the text. -/
def isBlankOrEnd (char : Char) : Bool :=
  char == ' ' || isBreakOrEnd char

/-- A blank, a tab, the end of a line or of the text. -/
def isGap (char : Char) : Bool :=
  char == '\t' || isBlankOrEnd char

/-- A blank or a tab. -/
def isSpacing (char : Char) : Bool :=
  char == ' ' || char == '\t'

/-- A decimal numeral. -/
def isDigit (char : Char) : Bool :=
  '0' ≤ char && char ≤ '9'

/-- A character of the names of directives, handles and anchors. -/
def isNameChar (char : Char) : Bool :=
  isDigit char || ('A' ≤ char && char ≤ 'Z') || ('a' ≤ char && char ≤ 'z') || char == '-'
    || char == '_'

/-- Whether a character is one of those of a text. -/
def isOneOf (chars : String) (char : Char) : Bool :=
  chars.toList.contains char

/-- A place in a text. -/
structure Cursor where
  rest : List Char
  index : Nat
  line : Nat
  column : Nat
deriving Repr

namespace Cursor

/-- The first place of a text. -/
def start (chars : List Char) : Cursor :=
  ⟨chars, 0, 0, 0⟩

def peek (cursor : Cursor) : Char :=
  cursor.rest.headD endMark

def peekAt (cursor : Cursor) (distance : Nat) : Char :=
  cursor.rest.getD distance endMark

/-- The place behind the next character. -/
def next (cursor : Cursor) : Cursor :=
  match cursor.rest with
  | [] => cursor
  | char :: rest =>
      if isBreak char then ⟨rest, cursor.index + 1, cursor.line + 1, 0⟩
      else
        ⟨rest, cursor.index + 1, cursor.line,
          if char = '\ufeff' then cursor.column else cursor.column + 1⟩

/-- The place behind a number of characters. -/
def skip : Nat → Cursor → Cursor
  | 0, cursor => cursor
  | count + 1, cursor => skip count cursor.next

/-- The characters of a class behind the cursor, and the place behind them. -/
def span (accepts : Char → Bool) (cursor : Cursor) : List Char × Cursor :=
  let taken := cursor.rest.takeWhile accepts
  (taken, cursor.skip taken.length)

/-- The place behind the characters of a class. -/
def skipWhile (accepts : Char → Bool) (cursor : Cursor) : Cursor :=
  (cursor.span accepts).2

/-- Whether a text stands behind the cursor. -/
def startsWith (cursor : Cursor) (part : String) : Bool :=
  part.toList.isPrefixOf cursor.rest

/-- The character that a line break stands for: separators stand for themselves. -/
def breakChar (cursor : Cursor) : Char :=
  if cursor.peek = '\u2028' ∨ cursor.peek = '\u2029' then cursor.peek else '\n'

/-- Whether three characters behind the cursor stand alone. -/
def standsAlone (cursor : Cursor) (mark : String) : Bool :=
  cursor.startsWith mark && isGap (cursor.peekAt 3)

/-- Whether a document starts or ends behind the cursor. -/
def atSeparator (cursor : Cursor) : Bool :=
  cursor.standsAlone "---" || cursor.standsAlone "..."

/-- The place behind blanks and a comment. -/
def skipComment (cursor : Cursor) : Cursor :=
  let cursor := cursor.skipWhile (· == ' ')
  if cursor.peek = '#' then cursor.skipWhile (!isBreakOrEnd ·) else cursor

end Cursor

/-- What several line breaks stand for: a single line feed becomes a blank, the first of several
disappears. -/
def foldBreaks (first : Char) (others : List Char) : List Char :=
  if first ≠ '\n' then first :: others
  else if others.isEmpty then [' ']
  else others

end ZodSchemas.Yaml
