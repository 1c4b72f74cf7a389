import ZodSchemas.Data.Value

namespace ZodSchemas.Json

/-!
# Writing JSON

A document is written on one line, or over several lines with each nesting
level indented by a number of blanks.  Empty lists and objects stay on one line,
and code points beyond ASCII stand as themselves.  What is shown outside has
characters only, with halves of surrogate pairs as escapes.
-/

open ZodSchemas.Data

def scalarText : Scalar → String
  | .null => "null"
  | .bool value => if value then "true" else "false"
  | .int value => toString value
  | .double value =>
      match value.shape with
      | .notANumber => "NaN"
      | .infinite negative => if negative then "-Infinity" else "Infinity"
      | .finite _ _ _ => value.text
  | .text value => Text.quoted value
  | .bytes value => Text.quoted (Scalar.bytesLiteral value)
  | .moment value => Text.quoted value.text

def keyText : Scalar → String
  | .text value => Text.quoted value
  | key => Text.quoted (scalarText key)

/-- Where the parts of a value stand: on one line, or on lines of their own below `indent` blanks. -/
inductive Layout where
  | line
  | indented (step : Nat) (indent : Nat)
deriving Repr, DecidableEq

/-- The layout of the parts of a value. -/
def Layout.inner : Layout → Layout
  | .line => .line
  | .indented step indent => .indented step (indent + step)

/-- What stands before a part. -/
def Layout.lead : Layout → String
  | .line => ""
  | .indented _ indent => "\n" ++ String.ofList (List.replicate indent ' ')

/-- What stands between two parts. -/
def Layout.between (layout : Layout) : String :=
  match layout with
  | .line => ", "
  | .indented _ _ => "," ++ layout.lead

/-- Enclose parts that are laid out by `layout.inner`. -/
def enclose (layout : Layout) (left right : String) (parts : List String) : String :=
  if parts.isEmpty then left ++ right
  else left ++ layout.inner.lead ++ layout.inner.between.intercalate parts ++ layout.lead ++ right

mutual

def write (layout : Layout) : Value → String
  | .scalar value => scalarText value
  | .set members => enclose layout "[" "]" (members.map scalarText)
  | .pair first second =>
      enclose layout "[" "]" [write layout.inner first, write layout.inner second]
  | .list items => enclose layout "[" "]" (writeItems layout.inner items)
  | .mapping entries => enclose layout "\x7b" "\x7d" (writeEntries layout.inner entries)

def writeItems (layout : Layout) : List Value → List String
  | [] => []
  | item :: rest => write layout item :: writeItems layout rest

def writeEntries (layout : Layout) : List (Scalar × Value) → List String
  | [] => []
  | (key, value) :: rest =>
      (keyText key ++ ": " ++ write layout value) :: writeEntries layout rest

end

def compact (value : Value) : String :=
  write .line value

/-- A value over several lines. -/
def pretty (step : Nat) (value : Value) : String :=
  write (.indented step 0) value

def shownCode (code : Nat) : List Char :=
  if Text.isHalf code then ['\x5c', 'u'] ++ Text.hexDigits 4 code else [Char.ofNat code]

/-- A value on one line, in characters. -/
def shown (value : Value) : String :=
  String.ofList ((Text.codePoints (compact value)).flatMap shownCode)

end ZodSchemas.Json
