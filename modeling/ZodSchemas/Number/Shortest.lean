import ZodSchemas.Number.Double

namespace ZodSchemas.Number

/-!
# Shortest and fixed decimal forms

`Double.shortest?` finds the fewest decimal digits that read back as the same
double, and of those the nearest to it.  `Double.text` lays them out: positional
between one ten-thousandth and ten to the sixteenth, with an exponent of at least
two numerals elsewhere.  `Double.fixed` rounds the exact value to a number of places.
-/

/-- The least `count` with `denominator ≤ numerator * 10 ^ count`, looking at most `fuel` places
far. -/
def leadingZeros : (fuel : Nat) → (numerator denominator : Nat) → Nat
  | 0, _, _ => 0
  | fuel + 1, numerator, denominator =>
      if denominator ≤ numerator then 0 else leadingZeros fuel (numerator * 10) denominator + 1

/-- The place of the decimal point of a positive ratio: it lies from `10 ^ (point - 1)` below
`10 ^ point`. -/
def decimalPoint (numerator denominator : Nat) : Int :=
  if denominator ≤ numerator then
    (Nat.toDigits 10 (numerator / denominator)).length
  else
    1 - (leadingZeros 400 numerator denominator : Int)

/-- Digits and the place of the decimal point before the first of them. -/
structure Decimal where
  digits : Nat
  scale : Int
deriving Repr, DecidableEq

/-- The grid neighbours of a ratio at one scale, the nearer one first. -/
def gridNeighbours (numerator denominator : Nat) (scale : Int) : List Decimal :=
  let (above, below) :=
    if scale < 0 then (numerator * Nat.pow 10 scale.natAbs, denominator)
    else (numerator, denominator * Nat.pow 10 scale.natAbs)
  let low := above / below
  let nearest := roundQuotient above below
  let other := if nearest = low then low + 1 else low
  [⟨nearest, scale⟩, ⟨other, scale⟩]

namespace Double

/-- The fewest digits that read back as a finite positive ratio's double, and of those the nearest. -/
def shortest? (double : Double) : Option Decimal :=
  match double.ratio? with
  | none => none
  | some (signed, denominator) =>
      let numerator := signed.natAbs
      let point := decimalPoint numerator denominator
      ((List.range 17).map fun (fewer : Nat) => point - (fewer + 1)).findSome? fun scale =>
        (gridNeighbours numerator denominator scale).find? fun candidate =>
          ofDecimal double.isNegative candidate.digits candidate.scale == double

def dropFinalZeros (numeral : List Char) : List Char :=
  (numeral.reverse.dropWhile (· == '0')).reverse

/-- The exponent of a number in scientific form, with a sign and at least two numerals. -/
def exponentText (exponent : Int) : List Char :=
  let numeral := Nat.toDigits 10 exponent.natAbs
  (if exponent < 0 then '-' else '+') :: (if numeral.length < 2 then '0' :: numeral else numeral)

/-- Lay out digits whose decimal point stands after the first `point` of them. -/
def layOut (numeral : List Char) (point : Int) : List Char :=
  if -4 < point ∧ point ≤ 16 then
    if point ≤ 0 then
      ['0', '.'] ++ List.replicate point.natAbs '0' ++ numeral
    else
      let width := point.natAbs
      let whole := numeral.take width ++ List.replicate (width - numeral.length) '0'
      let fraction := numeral.drop width
      whole ++ '.' :: (if fraction.isEmpty then ['0'] else fraction)
  else
    match numeral with
    | [] => []
    | first :: [] => first :: 'e' :: exponentText (point - 1)
    | first :: rest => first :: '.' :: rest ++ 'e' :: exponentText (point - 1)

/-- The shortest text that reads back as the double. -/
def text (double : Double) : String :=
  let sign := if double.isNegative then "-" else ""
  match double.shape with
  | .notANumber => "nan"
  | .infinite _ => sign ++ "inf"
  | .finite _ _ _ =>
      if double.isZero then
        sign ++ "0.0"
      else
        match double.shortest? with
        | some decimal =>
            let numeral := Nat.toDigits 10 decimal.digits
            sign ++ String.ofList (layOut (dropFinalZeros numeral) (numeral.length + decimal.scale))
        | none => sign

/-- The text with a fixed number of decimal places, a half of the exact value going to the even
digit. -/
def fixed (places : Nat) (double : Double) : String :=
  let sign := if double.isNegative then "-" else ""
  match double.ratio? with
  | some (signed, denominator) =>
      let scaled := roundQuotient (signed.natAbs * Nat.pow 10 places) denominator
      let numeral := Nat.toDigits 10 scaled
      let padded := List.replicate (places + 1 - numeral.length) '0' ++ numeral
      let whole := padded.take (padded.length - places)
      sign ++ String.ofList (whole ++ '.' :: padded.drop (padded.length - places))
  | none =>
      match double.shape with
      | .notANumber => "nan"
      | _ => sign ++ "inf"

end Double

end ZodSchemas.Number
