import ZodSchemas.Json.Error
import ZodSchemas.Text.Literal

namespace ZodSchemas.Yaml

/-!
# Faults in YAML texts

Most faults say no more than that the text is malformed.  The others concern the
value of a scalar whose tag promises a kind of value that its text does not
spell, and collections that lie too deep inside one another.
-/

/-- Why a text is no YAML document, or has a value that cannot be read. -/
inductive Fault where
  | malformed
  | noInteger (base : Nat) (text : String)
  | oversizedInteger (digits : Nat)
  | noDouble (text : String)
  | noDate (reason : String)
  | noCharacter
  | oversizedCharacter
  | oversizedWeight
  | noTruthValue
  | noMoment
  | emptyNumber
  | momentOfMapping
  | tooDeep
deriving Repr, DecidableEq

/-- The sentence about a fault. -/
def Fault.message : Fault → String
  | .malformed => "The text is malformed."
  | .noInteger base text =>
      "invalid literal for int() with base " ++ toString base ++ ": "
        ++ String.ofList ((Text.literal text).toList.take 200)
  | .oversizedInteger digits => Json.oversizedMessage digits
  | .noDouble text => "could not convert string to float: " ++ Text.literal text
  | .noDate reason => reason
  | .noCharacter => "chr() arg not in range(0x110000)"
  | .oversizedCharacter => "An escape stands for a number beyond any character."
  | .oversizedWeight => "A part of a number weighs more than any number."
  | .noTruthValue => "A truth value is expected."
  | .noMoment => "A date or a time is expected."
  | .emptyNumber => "A number has no digits."
  | .momentOfMapping => "A date or a time cannot be a mapping."
  | .tooDeep => "Collections lie too deep inside one another."

/-- Whether the fault lies in the form of the document. -/
def Fault.isSyntactic (fault : Fault) : Bool :=
  fault == .malformed

/-- Whether the fault is reported to the user as a bad value. -/
def Fault.isBadValue : Fault → Bool
  | .noInteger _ _ | .oversizedInteger _ | .noDouble _ | .noDate _ | .noCharacter => true
  | .malformed | .oversizedCharacter | .oversizedWeight | .noTruthValue | .noMoment | .emptyNumber
  | .momentOfMapping | .tooDeep => false

end ZodSchemas.Yaml
