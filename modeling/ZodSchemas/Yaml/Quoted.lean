import ZodSchemas.Yaml.Cursor
import ZodSchemas.Yaml.Fault

namespace ZodSchemas.Yaml

/-!
# Quoted scalars

Between single quotes only a doubled quote has a meaning of its own; between
double quotes a backslash starts an escape, which may stand for any code point.
Line breaks are folded, and no line of a quoted scalar may be a document
separator.
-/

/-- The characters that stand for one character behind a backslash. -/
def escapes : List (Char × Char) :=
  [('0', '\x00'), ('a', '\x07'), ('b', '\x08'), ('t', '\t'), ('\t', '\t'), ('n', '\n'),
    ('v', '\x0b'), ('f', '\x0c'), ('r', '\r'), ('e', '\x1b'), (' ', ' '), ('\x22', '\x22'),
    ('\x5c', '\x5c'), ('/', '/'), ('N', '\x85'), ('_', '\xa0'), ('L', '\u2028'), ('P', '\u2029')]

/-- How many hexadecimal numerals follow a letter behind a backslash. -/
def escapeWidth? (letter : Char) : Option Nat :=
  if letter = 'x' then some 2
  else if letter = 'u' then some 4
  else if letter = 'U' then some 8
  else none

/-- The value of a hexadecimal numeral. -/
def hexValue? (char : Char) : Option Nat :=
  if isDigit char then some (char.toNat - 48)
  else if 'a' ≤ char ∧ char ≤ 'f' then some (char.toNat - 87)
  else if 'A' ≤ char ∧ char ≤ 'F' then some (char.toNat - 55)
  else none

/-- The number that exactly `width` hexadecimal numerals spell. -/
def hexNumber? (width : Nat) (chars : List Char) : Option Nat :=
  if chars.length < width then none
  else (chars.take width).foldl (fun value char =>
    value.bind fun value => (hexValue? char).map (value * 16 + ·)) (some 0)

/-- Demand that a number is a code point. -/
def checkCode (code : Nat) : Except Fault Unit :=
  if 0x80000000 ≤ code then .error .oversizedCharacter
  else if 0x110000 ≤ code then .error .noCharacter
  else .ok ()

/-- The breaks of empty lines. -/
def quotedBreaks : (fuel : Nat) → Cursor → Except Fault (List Char × Cursor)
  | 0, cursor => .ok ([], cursor)
  | fuel + 1, cursor =>
      if cursor.atSeparator then .error .malformed
      else
        let behind := cursor.skipWhile isSpacing
        if isBreak behind.peek then do
          let (breaks, last) ← quotedBreaks fuel behind.next
          .ok (behind.breakChar :: breaks, last)
        else
          .ok ([], behind)

/-- Read an escape behind its backslash. -/
def readEscape (cursor : Cursor) : Except Fault (List Char × Cursor) :=
  match escapes.lookup cursor.peek, escapeWidth? cursor.peek with
  | some char, _ => .ok ([char], cursor.next)
  | none, some width =>
      match hexNumber? width cursor.next.rest with
      | some code => do
          checkCode code
          .ok (Text.kept code, cursor.next.skip width)
      | none => .error .malformed
  | none, none =>
      if isBreak cursor.peek then do
        let (breaks, behind) ← quotedBreaks (cursor.rest.length + 1) cursor.next
        .ok (breaks, behind)
      else
        .error .malformed

/-- Read blanks or line breaks. -/
def readQuotedGap (cursor : Cursor) : Except Fault (List Char × Cursor) :=
  let (blanks, behind) := cursor.span isSpacing
  if isBreak behind.peek then do
    let (breaks, last) ← quotedBreaks (behind.rest.length + 1) behind.next
    .ok (foldBreaks behind.breakChar breaks, last)
  else if behind.peek = endMark then
    .error .malformed
  else
    .ok (blanks, behind)

/-- Read up to the closing quote. -/
def readQuotedText (double : Bool) : (fuel : Nat) → Cursor → Except Fault (List Char × Cursor)
  | 0, _ => .error .malformed
  | fuel + 1, cursor => do
      let (piece, behind) ←
        if isGap cursor.peek then
          readQuotedGap cursor
        else if double ∧ cursor.peek = '\x5c' then
          readEscape cursor.next
        else if !double ∧ cursor.startsWith "''" then
          .ok (['\x27'], cursor.skip 2)
        else if cursor.peek = (if double then '\x22' else '\x27') then
          return ([], cursor.next)
        else
          .ok (Text.kept cursor.peek.toNat, cursor.next)
      let (others, last) ← readQuotedText double fuel behind
      .ok (piece ++ others, last)

/-- The text of the quoted scalar at the place of its opening quote, and the place behind it. -/
def quotedText (cursor : Cursor) : Except Fault (String × Cursor) := do
  let (chars, behind) ←
    readQuotedText (cursor.peek == '\x22') (cursor.rest.length + 1) cursor.next
  .ok (String.ofList chars, behind)

end ZodSchemas.Yaml
