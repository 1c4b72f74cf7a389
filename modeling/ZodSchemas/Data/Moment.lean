namespace ZodSchemas.Data

/-!
# Dates and times

A moment is a calendar date, or a date with a time of day that may carry an
offset from universal time.  `Moment.text` is its international form.
-/

/-- A day of the calendar. -/
structure Date where
  year : Nat
  month : Nat
  day : Nat
deriving Repr, DecidableEq

/-- A time of day; the offset from universal time is in seconds. -/
structure TimeOfDay where
  hour : Nat
  minute : Nat
  second : Nat
  microsecond : Nat
  offset : Option Int
deriving Repr, DecidableEq

/-- A date, alone or with a time of day. -/
inductive Moment where
  | day (date : Date)
  | instant (date : Date) (time : TimeOfDay)
deriving Repr, DecidableEq

/-- A number with zeros before it up to a width. -/
def zeroPadded (width number : Nat) : String :=
  let numeral := toString number
  String.ofList (List.replicate (width - numeral.length) '0') ++ numeral

namespace Date

/-- Whether a year has a leap day. -/
def isLeapYear (year : Nat) : Bool :=
  year % 4 == 0 && (year % 100 != 0 || year % 400 == 0)

/-- The number of days of a month. -/
def monthLength (year month : Nat) : Nat :=
  if month = 2 then
    if isLeapYear year then 29 else 28
  else if month = 4 ∨ month = 6 ∨ month = 9 ∨ month = 11 then
    30
  else
    31

/-- The number of days from the first day of year one. -/
def dayNumber (date : Date) : Nat :=
  let past := date.year - 1
  let inMonths := ((List.range (date.month - 1)).map fun month =>
    monthLength date.year (month + 1)).foldl (· + ·) 0
  past * 365 + past / 4 - past / 100 + past / 400 + inMonths + (date.day - 1)

/-- Year, month and day with hyphens between them. -/
def text (date : Date) : String :=
  zeroPadded 4 date.year ++ "-" ++ zeroPadded 2 date.month ++ "-" ++ zeroPadded 2 date.day

end Date

namespace TimeOfDay

/-- An offset as hours and minutes, and seconds where they are not zero. -/
def offsetText (offset : Int) : String :=
  let seconds := offset.natAbs
  let sign := if offset < 0 then "-" else "+"
  let minutes := zeroPadded 2 (seconds / 3600) ++ ":" ++ zeroPadded 2 (seconds / 60 % 60)
  sign ++ minutes ++ (if seconds % 60 = 0 then "" else ":" ++ zeroPadded 2 (seconds % 60))

/-- Hours, minutes and seconds, a fraction of six places where it is not zero, and the offset. -/
def text (time : TimeOfDay) : String :=
  let clock := zeroPadded 2 time.hour ++ ":" ++ zeroPadded 2 time.minute ++ ":"
    ++ zeroPadded 2 time.second
  let fraction := if time.microsecond = 0 then "" else "." ++ zeroPadded 6 time.microsecond
  clock ++ fraction ++ (time.offset.map offsetText).getD ""

/-- The microseconds from the start of a day, in universal time. -/
def universal (offset : Int) (time : TimeOfDay) : Int :=
  let seconds : Int := time.hour * 3600 + time.minute * 60 + time.second
  (seconds - offset) * 1000000 + time.microsecond

end TimeOfDay

namespace Moment

/-- The international form, with `separator` between date and time. -/
def textWith (separator : String) : Moment → String
  | .day date => date.text
  | .instant date time => date.text ++ separator ++ time.text

/-- The international form. -/
def text (moment : Moment) : String :=
  moment.textWith "T"

/-- Two instants with offsets are the same when they coincide in universal time. -/
def same : Moment → Moment → Bool
  | .instant firstDate firstTime, .instant secondDate secondTime =>
      match firstTime.offset, secondTime.offset with
      | some firstOffset, some secondOffset =>
          (firstDate.dayNumber : Int) * 86400000000 + firstTime.universal firstOffset
            == (secondDate.dayNumber : Int) * 86400000000 + secondTime.universal secondOffset
      | _, _ => firstDate == secondDate && firstTime == secondTime
  | first, second => first == second

/-- A span of seconds as days and the seconds that remain, which are never negative. -/
def spanLiteral (seconds : Int) : String :=
  let days := Int.fdiv seconds 86400
  let rest := Int.fmod seconds 86400
  let parts :=
    (if days = 0 then [] else ["days=" ++ toString days])
      ++ (if rest = 0 then [] else ["seconds=" ++ toString rest])
  "datetime.timedelta(" ++ (if parts.isEmpty then "0" else ", ".intercalate parts) ++ ")"

/-- The time zone of an offset, in full. -/
def zoneLiteral (offset : Int) : String :=
  if offset = 0 then "datetime.timezone.utc"
  else "datetime.timezone(" ++ spanLiteral offset ++ ")"

/-- The form of a moment inside a list or a mapping. -/
def literal : Moment → String
  | .day date =>
      "datetime.date(" ++ ", ".intercalate ([date.year, date.month, date.day].map toString) ++ ")"
  | .instant date time =>
      let parts := [date.year, date.month, date.day, time.hour, time.minute]
        ++ (if time.microsecond = 0 then
              if time.second = 0 then [] else [time.second]
            else [time.second, time.microsecond])
      let zone := (time.offset.map fun offset => ", tzinfo=" ++ zoneLiteral offset).getD ""
      "datetime.datetime(" ++ ", ".intercalate (parts.map toString) ++ zone ++ ")"

end Moment

end ZodSchemas.Data
