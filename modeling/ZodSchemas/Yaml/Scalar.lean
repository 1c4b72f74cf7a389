import ZodSchemas.Data.Value
import ZodSchemas.Text.Base64
import ZodSchemas.Yaml.Node
import ZodSchemas.Yaml.Number

namespace ZodSchemas.Yaml

/-!
# Scalars of nodes

The tag of a node decides which scalar its text spells.  Where a scalar is
expected, a mapping stands for the scalar under its value key.
-/

open Data

/-- The words that stand for truth values. -/
def truthValues : List (String × Bool) :=
  [("yes", true), ("no", false), ("true", true), ("false", false), ("on", true), ("off", false)]

/-- Read the text of a truth value; capitals do not count. -/
def readTruth (text : String) : Except Fault Bool :=
  match truthValues.lookup (Text.lowerCase text) with
  | some value => .ok value
  | none => .error .noTruthValue

def readBytes (text : String) : Except Fault (List UInt8) :=
  if text.toList.all (·.toNat < 128) then
    match Text.decodeBase64? text.toList with
    | some bytes => .ok bytes
    | none => .error .malformed
  else
    .error .malformed

namespace NodeTable

/-- The text of a node: a mapping stands for the text under its value key.  The way to it is at
most as long as there are nodes, unless it has no end. -/
def textWithin (table : NodeTable) : (fuel : Nat) → Nat → Except Fault String
  | 0, _ => .error .tooDeep
  | fuel + 1, number =>
      match (table.node number).content with
      | .scalar text => .ok text
      | .sequence _ => .error .malformed
      | .mapping entries =>
          match entries.find? fun entry => table.tag entry.1 == .value with
          | some entry => textWithin table fuel entry.2
          | none => .error .malformed

def text (table : NodeTable) (number : Nat) : Except Fault String :=
  table.textWithin (table.size + 1) number

/-- The moment of a node, which is no mapping. -/
def moment (table : NodeTable) (number : Nat) : Except Fault Moment := do
  let text ← table.text number
  match (table.node number).content with
  | .scalar _ => readMoment text.toList
  | .sequence _ | .mapping _ => .error .momentOfMapping

/-- The scalar of a node by its tag; the tags of collections and those without a meaning stand for
none.  A double that is no number is told apart by the number of its node. -/
def scalar (table : NodeTable) (number : Nat) : Except Fault Scalar :=
  match table.tag number with
  | .null => (table.text number).map fun _ => .null
  | .truth => do .ok (.bool (← readTruth (← table.text number)))
  | .integer => do .ok (.int (← readInteger (← table.text number).toList))
  | .double => do .ok (.double (← readDouble number (← table.text number).toList))
  | .bytes => do .ok (.bytes (← readBytes (← table.text number)))
  | .moment => (table.moment number).map .moment
  | .text => (table.text number).map .text
  | .orderedMap | .pairs | .set | .sequence | .mapping | .merge | .value | .unknown =>
      .error .malformed

end NodeTable

end ZodSchemas.Yaml
