namespace ZodSchemas.Number

/-!
# Double precision numbers

A double is kept as its sixty-four bits, so equality of values is decidable and
every operation below is exact arithmetic on natural numbers followed by one
rounding to the nearest double, a half going to the even neighbour.
-/

/-- A double precision number, given by its sixty-four bits. -/
structure Double where
  bits : UInt64
deriving Repr, DecidableEq, Inhabited

/-- What the bits of a double stand for; a finite one is `mantissa * 2 ^ exponent`. -/
inductive DoubleShape where
  | notANumber
  | infinite (negative : Bool)
  | finite (negative : Bool) (mantissa : Nat) (exponent : Int)
deriving Repr, DecidableEq

/-- The quotient rounded to the nearest natural number, a half going to the even neighbour. -/
def roundQuotient (numerator denominator : Nat) : Nat :=
  let quotient := numerator / denominator
  let twice := 2 * (numerator % denominator)
  if twice < denominator then quotient
  else if denominator < twice then quotient + 1
  else if quotient % 2 = 0 then quotient else quotient + 1

/-- The numerator and denominator of `mantissa * base ^ exponent`. -/
def scaledRatio (mantissa base : Nat) (exponent : Int) : Nat × Nat :=
  if exponent < 0 then (mantissa, base.pow exponent.natAbs)
  else (mantissa * base.pow exponent.natAbs, 1)

namespace Double

def infinityBits : Nat := 0x7FF0000000000000

/-- The weight of the sign among the bits. -/
def signWeight : Nat := 0x8000000000000000

def signBits (negative : Bool) : Nat :=
  if negative then signWeight else 0

/-- The least mantissa of fifty-three bits, whose leading bit is not stored. -/
def leadingBit : Nat := 0x10000000000000

def exponentCount : Nat := 2048

def infinity (negative : Bool) : Double :=
  ⟨UInt64.ofNat (signBits negative + infinityBits)⟩

/-- The bits of the double that is no number and has no identity of its own. -/
def notANumberBits : Nat := 0x7FF8000000000000

def notANumber : Double :=
  ⟨UInt64.ofNat notANumberBits⟩

/-- A double that is no number, told apart from others by an identity. -/
def notANumberOf (identity : Nat) : Double :=
  ⟨UInt64.ofNat (notANumberBits + identity + 1)⟩

def zero (negative : Bool) : Double :=
  ⟨UInt64.ofNat (signBits negative)⟩

/-- Take the bits apart. -/
def shape (double : Double) : DoubleShape :=
  let code : Nat := double.bits.toNat
  let negative : Bool := code / signWeight == 1
  let biased : Nat := code / leadingBit % exponentCount
  let fraction : Nat := code % leadingBit
  if biased = exponentCount - 1 then
    if fraction = 0 then .infinite negative else .notANumber
  else if biased = 0 then
    .finite negative fraction (-1074)
  else
    .finite negative (fraction + leadingBit) ((biased : Int) - 1075)

/-- The double nearest to `numerator / denominator`; too large a quotient becomes infinite. -/
def ofRatio (negative : Bool) (numerator denominator : Nat) : Double :=
  if numerator = 0 then
    zero negative
  else
    let magnitude : Int := (Nat.log2 numerator : Int) - (Nat.log2 denominator : Int)
    let low : Int := max (-1074) (magnitude - 53)
    let scale (exponent : Int) : Nat × Nat :=
      if exponent < 0 then (numerator * Nat.pow 2 exponent.natAbs, denominator)
      else (numerator, denominator * Nat.pow 2 exponent.natAbs)
    let first := scale low
    let exponent := if 2 * leadingBit ≤ first.1 / first.2 then low + 1 else low
    let second := scale exponent
    let mantissa := roundQuotient second.1 second.2
    let code :=
      if mantissa < leadingBit then mantissa
      else (exponent + 1075).toNat * leadingBit + (mantissa - leadingBit)
    ⟨UInt64.ofNat (signBits negative + min code infinityBits)⟩

/-- The double nearest to `digits * 10 ^ scale`. -/
def ofDecimal (negative : Bool) (digits : Nat) (scale : Int) : Double :=
  let places : Int := (Nat.log2 digits : Int) * 3 / 10 + scale
  if digits = 0 ∨ places < -400 then zero negative
  else if 400 < places then infinity negative
  else
    let ratio := scaledRatio digits 10 scale
    ofRatio negative ratio.1 ratio.2

/-- The double nearest to an integer. -/
def ofInt (number : Int) : Double :=
  ofRatio (number < 0) number.natAbs 1

/-- The signed numerator and the denominator of a finite double. -/
def ratio? (double : Double) : Option (Int × Nat) :=
  match double.shape with
  | .finite negative mantissa exponent =>
      let (numerator, denominator) := scaledRatio mantissa 2 exponent
      some (if negative then -(numerator : Int) else numerator, denominator)
  | _ => none

/-- The integer that a finite double equals. -/
def toInt? (double : Double) : Option Int :=
  match double.ratio? with
  | some (numerator, denominator) =>
      if numerator % denominator = 0 then some (numerator / denominator) else none
  | none => none

/-- Whether the sign bit is set. -/
def isNegative (double : Double) : Bool :=
  double.bits.toNat / signWeight == 1

def isFinite (double : Double) : Bool :=
  double.ratio?.isSome

/-- Whether a double is a zero of either sign. -/
def isZero (double : Double) : Bool :=
  double.bits.toNat % signWeight == 0

/-- Change the sign. -/
def negate (double : Double) : Double :=
  ⟨double.bits ^^^ 0x8000000000000000⟩

/-- Whether the double is a number or infinite. -/
def isNumber (double : Double) : Bool :=
  double.shape != .notANumber

/-- The sum of two doubles that are not both finite: opposite infinities have none. -/
def addBeyond (first second : Double) : Double :=
  if !first.isNumber || !second.isNumber then notANumber
  else if !first.isFinite && !second.isFinite && first != second then notANumber
  else if first.isFinite then second
  else first

/-- The rounded sum of two doubles. -/
def add (first second : Double) : Double :=
  match first.ratio?, second.ratio? with
  | some (a, b), some (c, d) =>
      let sum := a * d + c * b
      ofRatio (sum < 0 || (sum == 0 && first.isNegative && second.isNegative)) sum.natAbs (b * d)
  | _, _ => addBeyond first second

/-- The product of two doubles that are not both finite: infinity times zero has none. -/
def mulBeyond (first second : Double) : Double :=
  if !first.isNumber || !second.isNumber || first.isZero || second.isZero then notANumber
  else infinity (first.isNegative != second.isNegative)

/-- The rounded product of two doubles. -/
def mul (first second : Double) : Double :=
  match first.ratio?, second.ratio? with
  | some (a, b), some (c, d) =>
      ofRatio (first.isNegative != second.isNegative) (a * c).natAbs (b * d)
  | _, _ => mulBeyond first second

/-- Numeric equality: the two zeros are equal and what is no number equals nothing. -/
def same (first second : Double) : Bool :=
  match first.shape, second.shape with
  | .notANumber, _ => false
  | _, .notANumber => false
  | _, _ => first == second || (first.isZero && second.isZero)

end Double

end ZodSchemas.Number
