import ZodSchemas.Number.Numeral
import ZodSchemas.Text.Case
import ZodSchemas.Text.Parts
import ZodSchemas.Yaml.Tag

namespace ZodSchemas.Yaml

/-!
# Numbers

Underscores between the digits of a number do not count.  An integer has its
base from its start; both kinds of number may be a sequence of parts between
colons, each of which counts sixty times the next one.
-/

open Number
open Tag (unsigned)

/-- The text of a number without underscores. -/
def dropUnderscores (chars : List Char) : List Char :=
  chars.filter (· != '_')

/-- Whether a text starts with a minus sign. -/
def isNegated (chars : List Char) : Bool :=
  chars.head? == some '-'

/-- Read an integer in a base; one in tens may start with only so many digits. -/
def integerIn (base : Nat) (chars : List Char) : Except Fault Int :=
  let digits := (splitSign (trimBlanks chars)).2.takeWhile fun char => (digitIn? base char).isSome
  if base = 10 ∧ Json.digitLimit < digits.length then .error (.oversizedInteger digits.length)
  else
    match readInteger? base chars with
    | some value => .ok value
    | none => .error (.noInteger base (String.ofList chars))

/-- The sum of parts, the last of which counts once and each other one sixty times the next. -/
def sexagesimal (parts : List Int) : Int :=
  parts.foldl (fun value part => value * 60 + part) 0

/-- Read an integer without a sign. -/
def unsignedInteger (chars : List Char) : Except Fault Int :=
  match chars with
  | [] => .error .emptyNumber
  | ['0'] => .ok 0
  | '0' :: 'b' :: digits => integerIn 2 digits
  | '0' :: 'x' :: digits => integerIn 16 digits
  | '0' :: _ => integerIn 8 chars
  | _ =>
      if chars.contains ':' then ((Text.partsAt ':' chars).mapM (integerIn 10)).map sexagesimal
      else integerIn 10 chars

def readInteger (chars : List Char) : Except Fault Int := do
  let digits := dropUnderscores chars
  let value ← unsignedInteger (unsigned digits)
  .ok (if isNegated digits then -value else value)

def doubleIn (chars : List Char) : Except Fault Double :=
  match readDouble? chars with
  | some value => .ok value
  | none => .error (.noDouble (String.ofList chars))

/-- Sixty to a power, which may not be beyond all doubles. -/
def sixtyTo (power : Nat) : Except Fault Double :=
  let weight := Double.ofInt (Nat.pow 60 power : Nat)
  if weight.isFinite then .ok weight else .error .oversizedWeight

/-- The rounded sum of parts, taken from the last one, each weighted sixty times the next. -/
def sexagesimalDouble (parts : List Double) : Except Fault Double :=
  parts.reverse.zipIdx.foldlM (fun sum part => do
    let weight ← sixtyTo part.2
    .ok (sum.add (part.1.mul weight))) (.zero false)

/-- Read a double that is spelled with digits or as a word, without a sign. -/
def spelledDouble (chars : List Char) : Except Fault Double :=
  if chars = ".inf".toList then .ok (.infinity false)
  else if chars.contains ':' then do
    let parts ← (Text.partsAt ':' chars).mapM doubleIn
    sexagesimalDouble parts
  else doubleIn chars

/-- Read the text of a double; capitals do not count.  What is no number has the given identity,
except where it is spelled by the word that stands for it everywhere. -/
def readDouble (identity : Nat) (chars : List Char) : Except Fault Double :=
  let digits := Text.lowerFrom [] (dropUnderscores chars)
  if digits.isEmpty then .error .emptyNumber
  else if unsigned digits = ".nan".toList then .ok .notANumber
  else do
    let value ← spelledDouble (unsigned digits)
    .ok (if !value.isNumber then .notANumberOf identity
      else if isNegated digits then value.negate else value)

end ZodSchemas.Yaml
