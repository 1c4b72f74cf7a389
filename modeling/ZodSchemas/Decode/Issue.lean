import ZodSchemas.Text.Literal

namespace ZodSchemas.Decode

/-!
# Issues

Reading a document value as a typed one either accepts it or lists every issue
found, each with its cause and the path to the value at fault.
-/

/-- One step from a value to a part of it. -/
inductive Step where
  | key (name : String)
  | index (position : Int)
deriving Repr, DecidableEq

/-- Why a value is not accepted. -/
inductive Cause where
  | missing
  | notText
  | notUnicode
  | emptyText
  | notList
  | notMapping
  | notTextSet
  | keyNotText
  | notRecord (name : String)
  | notMember (labels : List String)
  | notBoolean
  | unreadableBoolean
  | notInteger
  | unreadableInteger
  | oversizedInteger
  | fractionalInteger
  | notFinite
  | below (bound : Int)
  | above (bound : Int)
  | emptyList
  | refused (reason : String)
  | unknownKey
  | frozen
  | noAttribute (name : String)
deriving Repr, DecidableEq

/-- A cause and the path to the value at fault. -/
structure Issue where
  cause : Cause
  path : List Step
deriving Repr, DecidableEq

namespace Cause

/-- Labels in quotes, with a comma between them and a conjunction before the last one. -/
def alternatives (labels : List String) : String :=
  match (labels.map Text.literal).reverse with
  | [] => ""
  | [only] => only
  | last :: earlier => ", ".intercalate earlier.reverse ++ " or " ++ last

def tag : Cause → String
  | .missing => "missing"
  | .notText => "string_type"
  | .notUnicode => "string_unicode"
  | .emptyText => "string_too_short"
  | .notList => "list_type"
  | .notMapping => "dict_type"
  | .notTextSet => "frozen_set_type"
  | .keyNotText => "invalid_key"
  | .notRecord _ => "model_type"
  | .notMember _ => "enum"
  | .notBoolean => "bool_type"
  | .unreadableBoolean => "bool_parsing"
  | .notInteger => "int_type"
  | .unreadableInteger => "int_parsing"
  | .oversizedInteger => "int_parsing_size"
  | .fractionalInteger => "int_from_float"
  | .notFinite => "finite_number"
  | .below _ => "greater_than_equal"
  | .above _ => "less_than_equal"
  | .emptyList => "too_short"
  | .refused _ => "value_error"
  | .unknownKey => "extra_forbidden"
  | .frozen => "frozen_instance"
  | .noAttribute _ => "no_such_attribute"

/-- The sentence about a cause. -/
def message : Cause → String
  | .missing => "Field required"
  | .notText => "Input should be a valid string"
  | .notUnicode =>
      "Input should be a valid string, unable to parse raw data as a unicode string"
  | .emptyText => "String should have at least 1 character"
  | .notList => "Input should be a valid list"
  | .notMapping => "Input should be a valid dictionary"
  | .notTextSet => "Input should be a valid frozenset"
  | .keyNotText => "Keys should be strings"
  | .notRecord name => "Input should be a valid dictionary or instance of " ++ name
  | .notMember labels => "Input should be " ++ alternatives labels
  | .notBoolean => "Input should be a valid boolean"
  | .unreadableBoolean => "Input should be a valid boolean, unable to interpret input"
  | .notInteger => "Input should be a valid integer"
  | .unreadableInteger =>
      "Input should be a valid integer, unable to parse string as an integer"
  | .oversizedInteger =>
      "Unable to parse input string as an integer, exceeded maximum size"
  | .fractionalInteger => "Input should be a valid integer, got a number with a fractional part"
  | .notFinite => "Input should be a finite number"
  | .below bound => "Input should be greater than or equal to " ++ toString bound
  | .above bound => "Input should be less than or equal to " ++ toString bound
  | .emptyList => "List should have at least 1 item after validation, not 0"
  | .refused reason => "Value error, " ++ reason
  | .unknownKey => "Extra inputs are not permitted"
  | .frozen => "Instance is frozen"
  | .noAttribute name => "Object has no attribute " ++ Text.literal name

end Cause

def headline (record : String) (issues : List Issue) : String :=
  toString issues.length ++ " validation error" ++ (if issues.length = 1 then "" else "s")
    ++ " for " ++ record

end ZodSchemas.Decode
