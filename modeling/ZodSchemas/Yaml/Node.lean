import ZodSchemas.Yaml.Tag

namespace ZodSchemas.Yaml

/-!
# Nodes

The nodes of a document stand in a table and name each other by their numbers,
so that an alias is the node that it stands for, also inside of that node.
-/

/-- The numbers of the nodes that are the key and the value of an entry. -/
abbrev Entry := Nat × Nat

/-- What a node holds: a text, or the numbers of other nodes. -/
inductive Content where
  | scalar (text : String)
  | sequence (items : List Nat)
  | mapping (entries : List Entry)
deriving Repr, DecidableEq

/-- A node with its tag. -/
structure Node where
  tag : Tag
  content : Content
deriving Repr, DecidableEq

def Node.empty : Node :=
  ⟨.null, .scalar ""⟩

/-- The nodes of a document by their numbers. -/
abbrev NodeTable := Array Node

namespace NodeTable

def node (table : NodeTable) (number : Nat) : Node :=
  table.getD number .empty

def tag (table : NodeTable) (number : Nat) : Tag :=
  (node table number).tag

def entries? (table : NodeTable) (number : Nat) : Option (List Entry) :=
  match (node table number).content with
  | .mapping entries => some entries
  | .scalar _ | .sequence _ => none

def items? (table : NodeTable) (number : Nat) : Option (List Nat) :=
  match (node table number).content with
  | .sequence items => some items
  | .scalar _ | .mapping _ => none

def setContent (table : NodeTable) (number : Nat) (content : Content) : NodeTable :=
  table.modify number fun node => { node with content }

def setTag (table : NodeTable) (number : Nat) (tag : Tag) : NodeTable :=
  table.modify number fun node => { node with tag }

end NodeTable

/-- A document: its nodes, and the number of the outermost one, if it has any. -/
structure Document where
  nodes : NodeTable
  root : Option Nat
deriving Repr

end ZodSchemas.Yaml
