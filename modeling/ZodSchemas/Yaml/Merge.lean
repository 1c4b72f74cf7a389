import ZodSchemas.Yaml.Fault
import ZodSchemas.Yaml.Node

namespace ZodSchemas.Yaml.NodeTable

/-!
# Merged entries

A merge key stands for the entries of other mappings, which are put before the
own ones of its mapping.  The entry of a merge key is taken out before the
mappings that it names are flattened in turn, so a mapping that merges itself
meets what is left of it.
-/

/-- The first entry with a merge key, and the entries without it. -/
def takeMerge? (table : NodeTable) : List Entry → Option (Entry × List Entry)
  | [] => none
  | entry :: rest =>
      if table.tag entry.1 = .merge then some (entry, rest)
      else (takeMerge? table rest).map fun found => (found.1, entry :: found.2)

/-- The mappings that a merge key with a value names. -/
def mergeSources? (table : NodeTable) (number : Nat) : Option (List Nat) :=
  match (table.node number).content with
  | .mapping _ => some [number]
  | .sequence items =>
      if items.all fun item => (table.entries? item).isSome then some items else none
  | .scalar _ => none

/-- Make a value key a text. -/
def keepValueKey (table : NodeTable) (entry : Entry) : NodeTable :=
  if table.tag entry.1 = .value then table.setTag entry.1 .text else table

/-- Set the entries of a flattened mapping, whose value keys are texts from now on. -/
def finishEntries (table : NodeTable) (number : Nat) (entries : List Entry) : NodeTable :=
  entries.foldl keepValueKey (table.setContent number (.mapping entries))

/-- The number of merge keys of a node. -/
def mergeCount (table : NodeTable) (node : Node) : Nat :=
  match node.content with
  | .mapping entries => entries.countP fun entry => table.tag entry.1 == .merge
  | .scalar _ | .sequence _ => 0

/-- The number of merge keys in a table. -/
def totalMerges (table : NodeTable) : Nat :=
  table.foldl (fun count node => count + table.mergeCount node) 0

/-- Replace the merge keys of a mapping, before whose entries those merged so far are put.  Each
step takes a merge key out, so one more than their number bounds the steps; of several sources the
first one comes last, and prevails. -/
def flattenOnto (merged : List Entry) : (fuel : Nat) → NodeTable → Nat → Except Fault NodeTable
  | 0, table, _ => .ok table
  | fuel + 1, table, number =>
      let entries := (table.entries? number).getD []
      match takeMerge? table entries with
      | none => .ok (table.finishEntries number (merged ++ entries))
      | some (entry, rest) =>
          match table.mergeSources? entry.2 with
          | none => .error .malformed
          | some sources => do
              let (table, found) ← sources.foldlM (fun (state : NodeTable × List Entry) source => do
                let table ← flattenOnto [] fuel state.1 source
                .ok (table, (table.entries? source).getD [] ++ state.2))
                (table.setContent number (.mapping rest), [])
              flattenOnto (merged ++ found) fuel table number

end ZodSchemas.Yaml.NodeTable
