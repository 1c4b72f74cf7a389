import ZodSchemas.Data.Moment
import ZodSchemas.Yaml.Cursor
import ZodSchemas.Yaml.Fault

namespace ZodSchemas.Yaml

/-!
# Timestamps

A timestamp is a date, alone or followed by a time of day with a fraction and a
zone.  Its form is read first; whether the numbers make a moment is decided
afterwards.
-/

open Data

/-- The zone of a timestamp. -/
inductive Zone where
  | absent
  | universal
  | offset (negative : Bool) (hours minutes : Nat)
deriving Repr, DecidableEq

/-- The numbers of the time of a timestamp; the fraction is held as its digits. -/
structure TimeNumbers where
  hour : Nat
  minute : Nat
  second : Nat
  fraction : List Char
  zone : Zone
deriving Repr, DecidableEq

/-- The numbers of a timestamp, and whether month and day have two digits each. -/
structure Timestamp where
  year : Nat
  month : Nat
  day : Nat
  isPadded : Bool
  time : Option TimeNumbers
deriving Repr, DecidableEq

/-- The number that digits spell. -/
def digitsValue (digits : List Char) : Nat :=
  digits.foldl (fun value digit => value * 10 + (digit.toNat - 48)) 0

/-- The digits at the front of a text, at most `most`, if they are at least `least`. -/
def digits? (least most : Nat) (chars : List Char) : Option (List Char × List Char) :=
  let digits := (chars.take most).takeWhile isDigit
  if digits.length < least then none else some (digits, chars.drop digits.length)

def behind? (char : Char) : List Char → Option (List Char)
  | [] => none
  | first :: rest => if first = char then some rest else none

/-- Read the minutes of a zone, which may be absent. -/
def zoneMinutes? (chars : List Char) : Option (Nat × List Char) :=
  match chars with
  | ':' :: rest => (digits? 2 2 rest).map fun read => (digitsValue read.1, read.2)
  | rest => some (0, rest)

/-- Read a zone that ends the text. -/
def zone? (chars : List Char) : Option Zone :=
  match chars with
  | [] => some .absent
  | _ =>
      match chars.dropWhile isSpacing with
      | ['Z'] => some .universal
      | sign :: rest => do
          if sign ≠ '+' ∧ sign ≠ '-' then none
          else
            let (hours, rest) ← digits? 1 2 rest
            let (minutes, rest) ← zoneMinutes? rest
            if rest.isEmpty then some (.offset (sign == '-') (digitsValue hours) minutes) else none
      | [] => none

/-- Read a time behind its separator. -/
def time? (chars : List Char) : Option TimeNumbers := do
  let (hour, rest) ← digits? 1 2 chars
  let rest ← behind? ':' rest
  let (minute, rest) ← digits? 2 2 rest
  let rest ← behind? ':' rest
  let (second, rest) ← digits? 2 2 rest
  let (fraction, rest) :=
    match rest with
    | '.' :: behind => (behind.takeWhile isDigit, behind.dropWhile isDigit)
    | behind => ([], behind)
  let zone ← zone? rest
  some ⟨digitsValue hour, digitsValue minute, digitsValue second, fraction, zone⟩

/-- Read the time of a timestamp, which may be absent. -/
def timePart? (chars : List Char) : Option (Option TimeNumbers) :=
  match chars with
  | [] => some none
  | first :: rest =>
      if first = 'T' ∨ first = 't' then (time? rest).map some
      else if isSpacing first then (time? (rest.dropWhile isSpacing)).map some
      else none

def timestamp? (chars : List Char) : Option Timestamp := do
  let (year, rest) ← digits? 4 4 chars
  let rest ← behind? '-' rest
  let (month, rest) ← digits? 1 2 rest
  let rest ← behind? '-' rest
  let (day, rest) ← digits? 1 2 rest
  let time ← timePart? rest
  some ⟨digitsValue year, digitsValue month, digitsValue day,
    month.length == 2 && day.length == 2, time⟩

/-- A text without a line feed at its end. -/
def dropFinalBreak (chars : List Char) : List Char :=
  if chars.getLast? = some '\n' then chars.dropLast else chars

/-- Whether a text suggests a timestamp: a date alone has two digits for month and day. -/
def suggestsTimestamp (chars : List Char) : Bool :=
  match timestamp? chars with
  | some timestamp => timestamp.isPadded || timestamp.time.isSome
  | none => false

/-- Make a date of three numbers. -/
def dateOf (timestamp : Timestamp) : Except Fault Date :=
  if timestamp.year = 0 then .error (.noDate "year 0 is out of range")
  else if timestamp.month = 0 ∨ 12 < timestamp.month then
    .error (.noDate "month must be in 1..12")
  else if timestamp.day = 0 ∨ Date.monthLength timestamp.year timestamp.month < timestamp.day then
    .error (.noDate "day is out of range for month")
  else
    .ok ⟨timestamp.year, timestamp.month, timestamp.day⟩

/-- The offset of a zone in seconds; it is shorter than a day. -/
def offsetOf (zone : Zone) : Except Fault (Option Int) :=
  match zone with
  | .absent => .ok none
  | .universal => .ok (some 0)
  | .offset negative hours minutes =>
      let span : Int := hours * 3600 + minutes * 60
      let signed := if negative then -span else span
      if 86400 ≤ span then
        .error (.noDate ("offset must be a timedelta strictly between -timedelta(hours=24) and "
          ++ "timedelta(hours=24), not " ++ Moment.spanLiteral signed ++ "."))
      else
        .ok (some signed)

/-- The microseconds that a fraction of a second spells in its first six digits. -/
def microseconds (fraction : List Char) : Nat :=
  digitsValue ((fraction ++ List.replicate 6 '0').take 6)

/-- Make a time of day of three numbers, a fraction and an offset. -/
def timeOf (numbers : TimeNumbers) (offset : Option Int) : Except Fault TimeOfDay :=
  if 23 < numbers.hour then .error (.noDate "hour must be in 0..23")
  else if 59 < numbers.minute then .error (.noDate "minute must be in 0..59")
  else if 59 < numbers.second then .error (.noDate "second must be in 0..59")
  else
    .ok ⟨numbers.hour, numbers.minute, numbers.second, microseconds numbers.fraction, offset⟩

def momentOf (timestamp : Timestamp) : Except Fault Moment :=
  match timestamp.time with
  | none => (dateOf timestamp).map .day
  | some numbers => do
      let offset ← offsetOf numbers.zone
      let date ← dateOf timestamp
      let time ← timeOf numbers offset
      .ok (.instant date time)

def readMoment (chars : List Char) : Except Fault Moment :=
  match timestamp? (dropFinalBreak chars) with
  | some timestamp => momentOf timestamp
  | none => .error .noMoment

end ZodSchemas.Yaml
