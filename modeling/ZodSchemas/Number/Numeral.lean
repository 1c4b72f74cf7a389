import ZodSchemas.Number.Double
import ZodSchemas.Text.CharClass

namespace ZodSchemas.Number

/-!
# Reading numerals

Integers in a base, with blanks around them, a sign, the letters that announce
the base and single underscores between digits; and decimal fractions.
-/

/-- The value of a digit in a base: decimal digits of any script, then Latin letters. -/
def digitIn? (base : Nat) (char : Char) : Option Nat :=
  let value :=
    match Text.digitValue? char with
    | some value => some value
    | none =>
        if 'a' ≤ char ∧ char ≤ 'z' then some (char.toNat - 87)
        else if 'A' ≤ char ∧ char ≤ 'Z' then some (char.toNat - 55)
        else none
  value.filter (· < base)

/-- The text without the blanks around it. -/
def trimBlanks (chars : List Char) : List Char :=
  ((chars.dropWhile Text.isBlank).reverse.dropWhile Text.isBlank).reverse

/-- Split a sign from a numeral; the first part says whether it is negative. -/
def splitSign : List Char → Bool × List Char
  | '-' :: rest => (true, rest)
  | '+' :: rest => (false, rest)
  | chars => (false, chars)

/-- The letter that may announce a base after a zero. -/
def baseLetter? : Nat → Option Char
  | 2 => some 'b'
  | 8 => some 'o'
  | 16 => some 'x'
  | _ => none

/-- The text after the announcement of its base, and after one underscore behind that. -/
def dropBaseLetter (base : Nat) (chars : List Char) : List Char :=
  match chars, baseLetter? base with
  | '0' :: letter :: rest, some expected =>
      if letter.toLower = expected then
        match rest with
        | '_' :: digits => digits
        | digits => digits
      else
        chars
  | _, _ => chars

/-- Read digits with single underscores between them on top of a value. -/
def readDigits? (base : Nat) (value : Nat) : List Char → Option Nat
  | [] => some value
  | '_' :: digit :: rest =>
      match digitIn? base digit with
      | some place => readDigits? base (value * base + place) rest
      | none => none
  | digit :: rest =>
      match digitIn? base digit with
      | some place => readDigits? base (value * base + place) rest
      | none => none

def readUnsigned? (base : Nat) : List Char → Option Nat
  | [] => none
  | '_' :: _ => none
  | chars => readDigits? base 0 chars

def readInteger? (base : Nat) (chars : List Char) : Option Int :=
  let (negative, unsigned) := splitSign (trimBlanks chars)
  (readUnsigned? base (dropBaseLetter base unsigned)).map fun value =>
    if negative then -(value : Int) else value

/-- The digits at the front of a text and the rest. -/
def spanDigits (chars : List Char) : List Nat × List Char :=
  ((chars.takeWhile fun char => (Text.digitValue? char).isSome).filterMap Text.digitValue?,
    chars.dropWhile fun char => (Text.digitValue? char).isSome)

/-- The number that decimal digits spell. -/
def ofDigits (digits : List Nat) : Nat :=
  digits.foldl (fun value digit => value * 10 + digit) 0

/-- Read the exponent of a fraction; no exponent is zero. -/
def readExponent? : List Char → Option Int
  | [] => some 0
  | letter :: rest =>
      if letter = 'e' ∨ letter = 'E' then
        let (negative, unsigned) := splitSign rest
        match spanDigits unsigned with
        | ([], _) => none
        | (digits, []) => some (if negative then -(ofDigits digits : Int) else ofDigits digits)
        | _ => none
      else
        none

/-- Read a decimal fraction without a sign. -/
def readUnsignedDouble? (negative : Bool) (chars : List Char) : Option Double :=
  let word := String.ofList (chars.map Char.toLower)
  if word = "inf" ∨ word = "infinity" then some (.infinity negative)
  else if word = "nan" then some .notANumber
  else
    let (whole, afterWhole) := spanDigits chars
    let (fraction, rest) :=
      match afterWhole with
      | '.' :: behind => spanDigits behind
      | behind => ([], behind)
    if whole.isEmpty ∧ fraction.isEmpty then
      none
    else
      (readExponent? rest).map fun exponent =>
        .ofDecimal negative (ofDigits (whole ++ fraction)) (exponent - fraction.length)

/-- Read a decimal fraction, with blanks around it and a sign. -/
def readDouble? (chars : List Char) : Option Double :=
  let (negative, unsigned) := splitSign (trimBlanks chars)
  readUnsignedDouble? negative unsigned

end ZodSchemas.Number
