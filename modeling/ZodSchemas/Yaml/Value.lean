import ZodSchemas.Yaml.Document
import ZodSchemas.Yaml.Object

namespace ZodSchemas.Yaml

/-!
# From objects to values

A value is what is found when all objects inside an object are followed.  One
that contains itself has no end; its outer levels are found nevertheless, and
that is all that a reader who knows how deep to look will meet.
-/

open Data

namespace ObjectTable

/-- Find the value of an object after those of its parts, next to the values found already.  The
way to a part is at most as long as there are objects, unless it has no end. -/
def find (table : ObjectTable) : (fuel : Nat) → Nat → StateT (Array (Option Value)) Option Unit
  | 0, _ => failure
  | fuel + 1, number => do
      if ((← get).getD number none).isNone then
        let object := table.object number
        object.parts.forM (find table fuel)
        modify fun found =>
          let value := object.value fun part => (found.getD part none).getD .null
          found.setIfInBounds number (some value)

/-- The value of an object that does not contain itself. -/
def value? (table : ObjectTable) (number : Nat) : Option Value := do
  let (_, found) ← (table.find (table.size + 1) number).run (Array.replicate table.size none)
  found.getD number none

/-- The values of all objects down to a number of levels. -/
def outerValues (table : ObjectTable) : (levels : Nat) → Array Value
  | 0 => table.map fun object =>
      ((object.getD (.scalar .null)).emptied).value fun _ => .null
  | levels + 1 =>
      let inner := outerValues table levels
      table.map fun object => (object.getD (.scalar .null)).value fun part => inner.getD part .null

/-- How many levels of a value without end are found. -/
def visibleLevels : Nat := 24

end ObjectTable

/-- A value, or the outer levels of one that contains itself. -/
structure Found where
  value : Value
  isEndless : Bool
deriving Repr

def ObjectTable.found (table : ObjectTable) (number : Nat) : Found :=
  match table.value? number with
  | some value => ⟨value, false⟩
  | none => ⟨(table.outerValues visibleLevels).getD number .null, true⟩

/-- Whether a character may occur in a text. -/
def isAllowed (char : Char) : Bool :=
  let code := char.toNat
  code == 0x09 || code == 0x0A || code == 0x0D || (0x20 ≤ code && code ≤ 0x7E) || code == 0x85
    || (0xA0 ≤ code && code ≤ 0xD7FF) || (0xE000 ≤ code && code ≤ 0xFFFD) || 0x10000 ≤ code

/-- The value of a document; one without nodes stands for null. -/
def Document.value (document : Document) : Except Fault Found :=
  match document.root with
  | some number => (document.nodes.objects number).map fun objects => objects.found number
  | none => .ok ⟨.null, false⟩

/-- Read a text as a document. -/
def read (chars : List Char) : Except Fault Found := do
  if !chars.all isAllowed then
    .error .malformed
  else
    (← Document.ofTokens (tokens chars)).value

end ZodSchemas.Yaml
