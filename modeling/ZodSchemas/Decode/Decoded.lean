import ZodSchemas.Decode.Issue

namespace ZodSchemas.Decode

/-!
# Results of reading

`Decoded` collects: the issues of all parts of a record are listed in the order
of the parts.  An enumeration value that is an object without a name interrupts
the whole reading, and no issue is listed then.
-/

/-- The result of reading a value. -/
inductive Decoded (α : Type) where
  | accepted (value : α)
  | rejected (issues : List Issue)
  | interrupted
deriving Repr, DecidableEq

namespace Decoded

def map (transform : α → β) : Decoded α → Decoded β
  | .accepted value => .accepted (transform value)
  | .rejected issues => .rejected issues
  | .interrupted => .interrupted

/-- Apply a transformation to a value, with the issues of both. -/
def apply : Decoded (α → β) → Decoded α → Decoded β
  | .accepted transform, .accepted value => .accepted (transform value)
  | .interrupted, _ => .interrupted
  | _, .interrupted => .interrupted
  | .rejected first, .rejected second => .rejected (first ++ second)
  | .rejected issues, .accepted _ => .rejected issues
  | .accepted _, .rejected issues => .rejected issues

instance : Functor Decoded where
  map := map

instance : Applicative Decoded where
  pure := .accepted
  seq transform value := apply transform (value ())

/-- Go on with an accepted value. -/
def andThen (result : Decoded α) (next : α → Decoded β) : Decoded β :=
  match result with
  | .accepted value => next value
  | .rejected issues => .rejected issues
  | .interrupted => .interrupted

/-- Reject with a single issue at the value itself. -/
def refuse (cause : Cause) : Decoded α :=
  .rejected [⟨cause, []⟩]

/-- Reject an accepted value for which a test names a cause. -/
def check (test : α → Option Cause) (result : Decoded α) : Decoded α :=
  result.andThen fun value =>
    match test value with
    | some cause => refuse cause
    | none => .accepted value

def below (step : Step) : Decoded α → Decoded α
  | .accepted value => .accepted value
  | .rejected issues => .rejected (issues.map fun issue => { issue with path := step :: issue.path })
  | .interrupted => .interrupted

/-- Collect the results of several parts. -/
def all : List (Decoded α) → Decoded (List α)
  | [] => .accepted []
  | first :: rest => apply (map List.cons first) (all rest)

end Decoded

end ZodSchemas.Decode
