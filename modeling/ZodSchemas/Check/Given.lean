import ZodSchemas.Check.Finding

namespace ZodSchemas.Check

/-!
# Given findings

A finding can be given by the values of a document.  Its code and its message may
be any values, which are shown as they stand and listed as they were given; its
details are the entries of an object, or absent.
-/

open Data

/-- Why a finding is not given: the code or the message is missing, something follows the details,
or the details have no entries. -/
inductive GivenFault where
  | wrongCount
  | noEntries
deriving Repr, DecidableEq

/-- A finding, with the code and the message that were given for it. -/
structure Given where
  finding : Finding
  code : Value
  message : Value
deriving Repr, BEq

namespace Given

def entriesOf : Value → Except GivenFault Mapping
  | .mapping entries => .ok entries
  | details => if details.isVacant then .ok [] else .error .noEntries

/-- A finding given by its code, its message and, on demand, its details. -/
def ofParts (level : Level) : List Value → Except GivenFault Given
  | [code, message] => .ok ⟨⟨level, code.display, message.display, []⟩, code, message⟩
  | [code, message, details] => do
      .ok ⟨⟨level, code.display, message.display, ← entriesOf details⟩, code, message⟩
  | _ => .error .wrongCount

/-- A finding as a document value, with the code and the message as they were given. -/
def value (given : Given) : Value :=
  .object [("level", .text given.finding.level.label), ("code", given.code),
    ("message", given.message), ("context", .mapping given.finding.details)]

end Given

end ZodSchemas.Check
