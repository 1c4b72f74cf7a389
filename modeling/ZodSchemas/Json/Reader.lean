import ZodSchemas.Data.Value
import ZodSchemas.Json.Error

namespace ZodSchemas.Json

/-!
# Reading JSON

A document is one value with blanks around it.  Next to the values of the
format the reader accepts the three numbers that have no digits: `NaN`,
`Infinity` and `-Infinity`.  A repeated key keeps its first place and takes the
last value.  The reader stops at the first fault.
-/

open ZodSchemas.Data
open ZodSchemas.Number

/-- The rest of a text and the number of characters before it. -/
structure Cursor where
  position : Nat
  rest : List Char
deriving Repr, DecidableEq

/-- A blank between the parts of a document. -/
def isBlank (char : Char) : Bool :=
  char == ' ' || char == '\t' || char == '\n' || char == '\r'

/-- One of the ten numerals. -/
def isDigit (char : Char) : Bool :=
  '0' ≤ char && char ≤ '9'

/-- Pass over a number of characters. -/
def Cursor.advance (cursor : Cursor) (count : Nat) : Cursor :=
  ⟨cursor.position + count, cursor.rest.drop count⟩

/-- Pass over blanks. -/
def Cursor.skipBlanks (cursor : Cursor) : Cursor :=
  cursor.advance (cursor.rest.takeWhile isBlank).length

def Cursor.fault (cursor : Cursor) (cause : Cause) : Fault :=
  ⟨cause, cursor.position⟩

/-- The value of a hexadecimal numeral. -/
def hexValue? (char : Char) : Option Nat :=
  if '0' ≤ char ∧ char ≤ '9' then some (char.toNat - 48)
  else if 'a' ≤ char ∧ char ≤ 'f' then some (char.toNat - 87)
  else if 'A' ≤ char ∧ char ≤ 'F' then some (char.toNat - 55)
  else none

/-- The value of hexadecimal numerals. -/
def hexNumber? (chars : List Char) : Option Nat :=
  chars.foldl (fun value char =>
    match value, hexValue? char with
    | some high, some low => some (high * 16 + low)
    | _, _ => none) (some 0)

/-- The character that a letter after a backslash stands for. -/
def escaped? (char : Char) : Option Char :=
  if char = '\x22' ∨ char = '\x5c' ∨ char = '/' then some char
  else if char = 'b' then some '\x08'
  else if char = 'f' then some '\x0c'
  else if char = 'n' then some '\n'
  else if char = 'r' then some '\r'
  else if char = 't' then some '\t'
  else none

/-- Four numerals with at least one more character behind them. -/
def readUnit (position : Nat) (chars : List Char) : Except Fault Nat :=
  if chars.length ≤ 4 then
    .error ⟨.brokenUnicodeEscape, position⟩
  else
    match hexNumber? (chars.take 4) with
    | some unit => .ok unit
    | none => .error ⟨.brokenUnicodeEscape, position⟩

/-- The code point that the numerals behind the letter at `position` stand for, and how many
characters they take: four, or ten where a second half follows. -/
def readUnicodeEscape (position : Nat) (chars : List Char) : Except Fault (Nat × Nat) := do
  let high ← readUnit position chars
  let behind := chars.drop 4
  if Text.isHighHalf high && 6 < behind.length && behind.take 2 == ['\x5c', 'u'] then
    match hexNumber? ((behind.drop 2).take 4) with
    | none => .error ⟨.brokenUnicodeEscape, position + 6⟩
    | some low =>
        if Text.isLowHalf low then
          .ok (0x10000 + (high - 0xD800) * 0x400 + (low - 0xDC00), 10)
        else
          .ok (high, 4)
  else
    .ok (high, 4)

/-- Read the inside of a string that was opened at `start`, on top of the reversed code points
read so far. -/
def readString (start position : Nat) (read : List Nat) :
    List Char → Except Fault (Scalar × Cursor)
  | [] => .error ⟨.unclosedString, start⟩
  | first :: rest =>
      if first = '\x22' then
        .ok (.text (Text.ofCodePoints read.reverse), ⟨position + 1, rest⟩)
      else if first = '\x5c' then
        match rest with
        | [] => .error ⟨.unclosedString, start⟩
        | letter :: behind =>
            if letter = 'u' then
              match readUnicodeEscape (position + 1) behind with
              | .error fault => .error fault
              | .ok (code, width) =>
                  readString start (position + 2 + width) (code :: read) (behind.drop width)
            else
              match escaped? letter with
              | some char => readString start (position + 2) (char.toNat :: read) behind
              | none => .error ⟨.unknownEscape, position⟩
      else if first.toNat < 0x20 then
        .error ⟨.controlCharacter, position⟩
      else
        readString start (position + 1) (first.toNat :: read) rest
termination_by chars => chars.length
decreasing_by
  · simp only [List.length_drop, List.length_cons]
    omega
  · simp only [List.length_cons]
    omega
  · simp only [List.length_cons]
    omega

/-- The numerals at the front of a text. -/
def leadingDigits (chars : List Char) : List Char :=
  chars.takeWhile isDigit

/-- The numerals of the whole part: a zero stands alone. -/
def wholePart (chars : List Char) : List Char :=
  match chars with
  | '0' :: _ => ['0']
  | _ => leadingDigits chars

/-- The numerals behind a point, if there is at least one. -/
def fractionPart : List Char → List Char
  | '.' :: rest => leadingDigits rest
  | _ => []

/-- The sign and the numerals of an exponent, if there is at least one. -/
def exponentPart : List Char → Option (List Char × List Char)
  | letter :: rest =>
      if letter = 'e' ∨ letter = 'E' then
        let sign := rest.take 1 |>.filter fun char => char == '-' || char == '+'
        let digits := leadingDigits (rest.drop sign.length)
        if digits.isEmpty then none else some (sign, digits)
      else
        none
  | [] => none

/-- The number that numerals spell. -/
def numberOf (digits : List Char) : Nat :=
  digits.foldl (fun value digit => value * 10 + (digit.toNat - 48)) 0

def readNumber (cursor : Cursor) : Except Fault (Scalar × Cursor) :=
  let negative := cursor.rest.head? == some '-'
  let signWidth := if negative then 1 else 0
  let unsigned := cursor.rest.drop signWidth
  let whole := wholePart unsigned
  if whole.isEmpty then
    .error (cursor.fault .missingValue)
  else
    let behindWhole := unsigned.drop whole.length
    let fraction := fractionPart behindWhole
    let fractionWidth := if fraction.isEmpty then 0 else fraction.length + 1
    let exponent := exponentPart (behindWhole.drop fractionWidth)
    match fraction, exponent with
    | [], none =>
        if digitLimit < whole.length then
          .error (cursor.fault (.oversizedInteger whole.length))
        else
          let value : Int := numberOf whole
          .ok (.int (if negative then -value else value), cursor.advance (signWidth + whole.length))
    | _, _ =>
        let power : Int := match exponent with
          | some (sign, digits) => if sign == ['-'] then -(numberOf digits : Int) else numberOf digits
          | none => 0
        let exponentWidth := match exponent with
          | some (sign, digits) => 1 + sign.length + digits.length
          | none => 0
        let digits := numberOf (whole ++ fraction)
        let value := Double.ofDecimal negative digits (power - fraction.length)
        .ok (.double value,
          cursor.advance (signWidth + whole.length + fractionWidth + exponentWidth))

/-- The values that are written as words. -/
def words : List (String × Scalar) :=
  [("null", .null), ("true", .bool true), ("false", .bool false),
    ("NaN", .double .notANumber), ("Infinity", .double (.infinity false)),
    ("-Infinity", .double (.infinity true))]

/-- Read a value without parts other than a string. -/
def readPlain (cursor : Cursor) : Except Fault (Scalar × Cursor) :=
  match words.find? fun word => word.1.toList.isPrefixOf cursor.rest with
  | some (word, value) => .ok (value, cursor.advance word.length)
  | none => readNumber cursor

/-- How many lists and objects may lie inside one another. -/
def depthLimit : Nat := 988

mutual

/-- Read a value at the cursor, inside a number of lists and objects. -/
def readValue (depth fuel : Nat) (cursor : Cursor) : Except Fault (Value × Cursor) :=
  match fuel with
  | 0 => .error (cursor.fault .missingValue)
  | fuel + 1 =>
      match cursor.rest with
      | [] => .error (cursor.fault .missingValue)
      | first :: rest =>
          if first = '\x22' then do
            let (string, behind) ← readString cursor.position (cursor.position + 1) [] rest
            .ok (.scalar string, behind)
          else if depthLimit ≤ depth ∧ (first = '\x7b' ∨ first = '[') then
            .error (cursor.fault .tooDeep)
          else if first = '\x7b' then do
            let inside := (cursor.advance 1).skipBlanks
            if inside.rest.head? = some '\x7d' then
              .ok (.mapping [], inside.advance 1)
            else
              let (entries, behind) ← readEntries (depth + 1) fuel inside
              .ok (.mapping (Mapping.ofEntries entries), behind)
          else if first = '[' then do
            let inside := (cursor.advance 1).skipBlanks
            if inside.rest.head? = some ']' then
              .ok (.list [], inside.advance 1)
            else
              let (items, behind) ← readItems (depth + 1) fuel inside
              .ok (.list items, behind)
          else do
            let (scalar, behind) ← readPlain cursor
            .ok (.scalar scalar, behind)

/-- Read the items of a list up to its closing bracket. -/
def readItems (depth fuel : Nat) (cursor : Cursor) : Except Fault (List Value × Cursor) :=
  match fuel with
  | 0 => .error (cursor.fault .missingValue)
  | fuel + 1 => do
      let (item, behindItem) ← readValue depth fuel cursor
      let after := behindItem.skipBlanks
      match after.rest with
      | ']' :: _ => .ok ([item], after.advance 1)
      | ',' :: _ =>
          let (items, behind) ← readItems depth fuel (after.advance 1).skipBlanks
          .ok (item :: items, behind)
      | _ => .error (after.fault .missingComma)

/-- Read the entries of an object up to its closing brace. -/
def readEntries (depth fuel : Nat) (cursor : Cursor) :
    Except Fault (List (Scalar × Value) × Cursor) :=
  match fuel with
  | 0 => .error (cursor.fault .missingKey)
  | fuel + 1 => do
      match cursor.rest with
      | '\x22' :: rest =>
          let (key, behindKey) ← readString cursor.position (cursor.position + 1) [] rest
          let colon := behindKey.skipBlanks
          if colon.rest.head? = some ':' then
            let (value, behindValue) ← readValue depth fuel (colon.advance 1).skipBlanks
            let after := behindValue.skipBlanks
            match after.rest with
            | '\x7d' :: _ => .ok ([(key, value)], after.advance 1)
            | ',' :: _ =>
                let (entries, behind) ← readEntries depth fuel (after.advance 1).skipBlanks
                .ok ((key, value) :: entries, behind)
            | _ => .error (after.fault .missingComma)
          else
            .error (colon.fault .missingColon)
      | _ => .error (cursor.fault .missingKey)

end

def read (chars : List Char) : Except Fault Value :=
  if chars.head? = some '\ufeff' then
    .error ⟨.byteOrderMark, 0⟩
  else do
    let (value, behind) ← readValue 0 (2 * chars.length + 2) (Cursor.mk 0 chars).skipBlanks
    let after := behind.skipBlanks
    if after.rest.isEmpty then .ok value else .error (after.fault .trailingText)

end ZodSchemas.Json
