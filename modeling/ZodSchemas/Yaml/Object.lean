import ZodSchemas.Yaml.Merge
import ZodSchemas.Yaml.Scalar

namespace ZodSchemas.Yaml

/-!
# From nodes to objects

Each node stands for one object, and objects name the ones inside them by the
numbers of the nodes.  The object of a collection is begun empty when its node is
first met, and completed after all those that were begun before it; of several
faults the one that is met first in this order counts.
-/

open Data

/-- What a node stands for; the parts of a collection are given by the numbers of their nodes. -/
inductive Object where
  | scalar (value : Scalar)
  | list (items : List Nat)
  | pairs (entries : List Entry)
  | set (members : List Scalar)
  | mapping (entries : List (Scalar × Nat))
deriving Repr, DecidableEq

/-- The objects of a document by the numbers of their nodes, as far as they are begun. -/
abbrev ObjectTable := Array (Option Object)

def ObjectTable.object (table : ObjectTable) (number : Nat) : Object :=
  (table.getD number none).getD (.scalar .null)

namespace Object

def parts : Object → List Nat
  | .scalar _ | .set _ => []
  | .list items => items
  | .pairs entries => entries.flatMap fun entry => [entry.1, entry.2]
  | .mapping entries => entries.map (·.2)

/-- The object without its parts. -/
def emptied : Object → Object
  | .scalar value => .scalar value
  | .set members => .set members
  | .list _ => .list []
  | .pairs _ => .pairs []
  | .mapping _ => .mapping []

/-- The value of an object, given those of its parts. -/
def value (part : Nat → Value) : Object → Value
  | .scalar value => .scalar value
  | .set members => .set members
  | .list items => .list (items.map part)
  | .pairs entries => .list (entries.map fun entry => .pair (part entry.1) (part entry.2))
  | .mapping entries => .mapping (entries.map fun entry => (entry.1, part entry.2))

end Object

/-- The objects made so far, and the nodes of collections in the order in which their objects were
begun; there are never more merge keys than at first. -/
structure Making where
  nodes : NodeTable
  merges : Nat
  objects : ObjectTable
  begun : Array Nat

/-- A step of making objects. -/
abbrev Make (α : Type) := StateT Making (Except Fault) α

namespace Make

/-- The nodes, as far as they are flattened. -/
def nodes : Make NodeTable :=
  return (← get).nodes

def setObject (number : Nat) (object : Object) : Make Unit :=
  modify fun making =>
    { making with objects := making.objects.setIfInBounds number (some object) }

/-- The empty object of a collection of a kind. -/
def emptyObject? : Tag → Option Object
  | .sequence => some (.list [])
  | .orderedMap | .pairs => some (.pairs [])
  | .set => some (.set [])
  | .mapping => some (.mapping [])
  | .null | .truth | .integer | .double | .bytes | .moment | .text | .merge | .value | .unknown =>
      none

/-- Begin the object of a node, unless it is begun: a scalar is complete at once. -/
def begin (number : Nat) : Make Unit := do
  let making ← get
  if (making.objects.getD number none).isNone then
    match emptyObject? (making.nodes.tag number) with
    | some object =>
        setObject number object
        modify fun making => { making with begun := making.begun.push number }
    | none =>
        let value ← making.nodes.scalar number
        setObject number (.scalar value)

def key (number : Nat) : Make Scalar := do
  begin number
  match (← get).objects.object number with
  | .scalar value => pure value
  | _ => throw .malformed

/-- What a node must have. -/
def demand : Option α → Make α
  | some value => pure value
  | none => throw .malformed

/-- The entries of a mapping with its merge keys replaced; of one key the last value counts. -/
def keyedEntries (number : Nat) : Make (List (Scalar × Nat)) := do
  let _ ← demand ((← nodes).entries? number)
  let flattened ← (← nodes).flattenOnto [] ((← get).merges + 1) number
  modify fun making => { making with nodes := flattened }
  ((flattened.entries? number).getD []).foldlM (fun entries entry => do
    let key ← key entry.1
    begin entry.2
    pure (insertEntry key entry.2 entries)) []

def onlyEntry (number : Nat) : Make Entry := do
  match (← nodes).entries? number with
  | some [entry] => pure entry
  | _ => throw .malformed

/-- The entries of a sequence of mappings with one entry each. -/
def pairEntries (number : Nat) : Make (List Entry) := do
  let items ← demand ((← nodes).items? number)
  items.mapM fun item => do
    let entry ← onlyEntry item
    begin entry.1
    begin entry.2
    pure entry

def listItems (number : Nat) : Make (List Nat) := do
  let items ← demand ((← nodes).items? number)
  items.forM begin
  pure items

def complete (number : Nat) : Make Unit := do
  match (← nodes).tag number with
  | .sequence => setObject number (.list (← listItems number))
  | .orderedMap | .pairs => setObject number (.pairs (← pairEntries number))
  | .set => setObject number (.set ((← keyedEntries number).map (·.1)))
  | .mapping => setObject number (.mapping (← keyedEntries number))
  | .null | .truth | .integer | .double | .bytes | .moment | .text | .merge | .value | .unknown =>
      pure ()

/-- Complete the objects in the order in which they were begun, from a place in it. -/
def completeFrom (place : Nat) : (fuel : Nat) → Make Unit
  | 0 => pure ()
  | fuel + 1 => do
      match (← get).begun[place]? with
      | none => pure ()
      | some number =>
          complete number
          completeFrom (place + 1) fuel

end Make

/-- The objects of the nodes that can be met from one with a number. -/
def NodeTable.objects (table : NodeTable) (number : Nat) : Except Fault ObjectTable :=
  let start : Making := ⟨table, table.totalMerges, Array.replicate table.size none, #[]⟩
  let all : Make Unit := do
    Make.begin number
    Make.completeFrom 0 (table.size + 1)
  (all.run start).map fun result => result.2.objects

end ZodSchemas.Yaml
