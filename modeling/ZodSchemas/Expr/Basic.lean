namespace ZodSchemas

/-!
# Validator expressions

A validator is a tree: primitive calls, the shared validator for arbitrary JSON,
references to named schemas, and the wrappers and combinations around them.
Traversals are by structure, from a node to its children and from left to right.
-/

/-- What a reference points at; each kind has its own naming. -/
inductive ReferenceKind where
  | object
  | enumeration
  | operation
deriving Repr, DecidableEq

/-- A reference to a named schema. -/
structure Reference where
  name : String
  kind : ReferenceKind
deriving Repr, DecidableEq

namespace ReferenceKind

/-- Every kind, in declaration order. -/
def all : List ReferenceKind :=
  [.object, .enumeration, .operation]

def label : ReferenceKind → String
  | .object => "object"
  | .enumeration => "enum"
  | .operation => "operation"

end ReferenceKind

namespace Reference

/-- The symbol that the module of the referenced schema exports. -/
def symbol (reference : Reference) : String :=
  match reference.kind with
  | .object => reference.name ++ "ObjectSchema"
  | .enumeration | .operation => reference.name ++ "Schema"

/-- The path of the module of the referenced schema, without extension, below the schemas
directory. -/
def stem (reference : Reference) : String :=
  match reference.kind with
  | .object => "objects/" ++ reference.name ++ ".schema"
  | .enumeration => "enums/" ++ reference.name ++ ".schema"
  | .operation => reference.name ++ ".schema"

end Reference

/-- A validator expression; a foreign one has no written form. -/
inductive Expr where
  | primitive (code : String)
  | json
  | reference (target : Reference)
  | deferred (inner : Expr) (hostType : Option String)
  | array (inner : Expr)
  | optional (inner : Expr)
  | nullable (inner : Expr)
  | union (members : List Expr)
  | object (fields : List (String × Expr)) (strict : Bool)
  | enumeration (values : List String)
  | foreign (className : String)
deriving Repr, BEq, Inhabited

namespace Expr

/-- The children of a node, from left to right. -/
def children : Expr → List Expr
  | .deferred inner _ | .array inner | .optional inner | .nullable inner => [inner]
  | .union members => members
  | .object fields _ => fields.map (·.2)
  | .primitive _ | .json | .reference _ | .enumeration _ | .foreign _ => []

mutual

/-- Every node, each before its children. -/
def walk : Expr → List Expr
  | .deferred inner hostType => .deferred inner hostType :: walk inner
  | .array inner => .array inner :: walk inner
  | .optional inner => .optional inner :: walk inner
  | .nullable inner => .nullable inner :: walk inner
  | .union members => .union members :: walkAll members
  | .object fields strict => .object fields strict :: walkFields fields
  | .primitive code => [.primitive code]
  | .json => [.json]
  | .reference target => [.reference target]
  | .enumeration values => [.enumeration values]
  | .foreign className => [.foreign className]

/-- Every node of several expressions. -/
def walkAll : List Expr → List Expr
  | [] => []
  | first :: rest => walk first ++ walkAll rest

/-- Every node of several fields. -/
def walkFields : List (String × Expr) → List Expr
  | [] => []
  | (_, value) :: rest => walk value ++ walkFields rest

end

theorem walkFields_eq (fields : List (String × Expr)) :
    walkFields fields = walkAll (fields.map (·.2)) := by
  induction fields with
  | nil =>
      rfl
  | cons first rest inductionHypothesis =>
      rw [walkFields, List.map_cons, walkAll, inductionHypothesis]

/-- A node stands before what its children lead to. -/
theorem walk_eq (expr : Expr) :
    expr.walk = expr :: walkAll expr.children := by
  cases expr with
  | deferred | array | optional | nullable =>
      simp only [walk, children, walkAll, List.append_nil]
  | union =>
      rw [walk, children]
  | object =>
      rw [walk, children, walkFields_eq]
  | primitive | json | reference | enumeration | foreign =>
      rw [walk, children, walkAll]

theorem walkAll_append (first rest : List Expr) :
    walkAll (first ++ rest) = walkAll first ++ walkAll rest := by
  induction first with
  | nil =>
      rfl
  | cons head tail inductionHypothesis =>
      rw [List.cons_append, walkAll, inductionHypothesis, walkAll, List.append_assoc]

/-- The nodes that are met when the first expression of a stack is taken off time and again, and
its children are put on top in its place. -/
def nodesFrom : List Expr → List Expr
  | [] => []
  | node :: rest => node :: nodesFrom (node.children ++ rest)
termination_by stack => (walkAll stack).length
decreasing_by
  rw [walkAll, walk_eq, walkAll_append, List.cons_append, List.length_cons]
  omega

/-- Every node, in the order in which they are met. -/
def nodes (expr : Expr) : List Expr :=
  nodesFrom [expr]

def reference? : Expr → Option Reference
  | .reference target => some target
  | _ => none

/-- Every reference, once for each of its occurrences. -/
def occurrences (expr : Expr) : List Reference :=
  expr.nodes.filterMap reference?

/-- A list without repetitions, in the order of first occurrences. -/
def firstOccurrences [DecidableEq α] : List α → List α
  | [] => []
  | item :: rest => item :: (firstOccurrences rest).filter (· ≠ item)

/-- The distinct references, in the order of their first occurrences. -/
def references (expr : Expr) : List Reference :=
  firstOccurrences expr.occurrences

/-- Whether a node is the shared validator for arbitrary JSON. -/
def isJson : Expr → Bool
  | .json => true
  | _ => false

/-- Whether a node is a deferred binding with the name of a host type. -/
def isAnnotated : Expr → Bool
  | .deferred _ (some hostType) => !hostType.isEmpty
  | _ => false

/-- Whether the validator for arbitrary JSON occurs. -/
def usesJson (expr : Expr) : Bool :=
  expr.nodes.any isJson

/-- Whether a deferred binding with the name of a host type occurs. -/
def hasAnnotation (expr : Expr) : Bool :=
  expr.nodes.any isAnnotated

/-- The expression without the optional wrappers around it. -/
def stripOptional : Expr → Expr
  | .optional inner => stripOptional inner
  | expr => expr

mutual

/-- The references that no deferred binding encloses, once for each occurrence. -/
def eager : Expr → List Reference
  | .reference target => [target]
  | .deferred _ _ => []
  | .array inner | .optional inner | .nullable inner => eager inner
  | .union members => eagerAll members
  | .object fields _ => eagerFields fields
  | .primitive _ | .json | .enumeration _ | .foreign _ => []

/-- The references of several expressions that no deferred binding encloses. -/
def eagerAll : List Expr → List Reference
  | [] => []
  | first :: rest => eager first ++ eagerAll rest

/-- The references of several fields that no deferred binding encloses. -/
def eagerFields : List (String × Expr) → List Reference
  | [] => []
  | (_, value) :: rest => eager value ++ eagerFields rest

end

/-- Whether a node is a reference with a name. -/
def refersTo (name : String) : Expr → Bool
  | .reference target => target.name == name
  | _ => false

/-- Whether a node is a deferred binding. -/
def defers : Expr → Bool
  | .deferred _ _ => true
  | _ => false

theorem length_walkAll_reverse (stack : List Expr) :
    (walkAll stack.reverse).length = (walkAll stack).length := by
  induction stack with
  | nil =>
      rfl
  | cons head tail inductionHypothesis =>
      rw [List.reverse_cons, walkAll_append, List.length_append, inductionHypothesis, walkAll,
        walkAll, walkAll, List.append_nil, List.length_append, Nat.add_comm]

/-- Search a stack of expressions for a name, each with whether a deferred binding encloses it.
The search ends where a reference is met that none encloses; otherwise it answers whether one has
been found.  Of the children of a node the last is searched first. -/
def deferralFrom (name : String) (found : Bool) : List (Expr × Bool) → Bool
  | [] => found
  | (node, enclosed) :: rest =>
      if node.refersTo name && !enclosed then
        false
      else
        deferralFrom name (found || node.refersTo name)
          (node.children.reverse.map (·, enclosed || node.defers) ++ rest)
termination_by stack => (walkAll (stack.map (·.1))).length
decreasing_by
  have sameNodes : (node.children.reverse.map (·, enclosed || node.defers)).map (·.1) =
      node.children.reverse := by
    rw [List.map_map]
    exact List.map_id _
  rw [List.map_append, sameNodes, walkAll_append, List.length_append, length_walkAll_reverse]
  change _ < (node.walk ++ walkAll (rest.map (·.1))).length
  rw [walk_eq, List.length_append, List.length_cons]
  omega

/-- Whether a name is referenced, and only below deferred bindings. -/
def isDeferred (expr : Expr) (name : String) : Bool :=
  deferralFrom name false [(expr, false)]

def fieldNames : Expr → List String
  | .object fields _ => fields.map (·.1)
  | _ => []

/-- The first field of an object with a name. -/
def field? (expr : Expr) (name : String) : Option Expr :=
  match expr with
  | .object fields _ => fields.lookup name
  | _ => none

end Expr

end ZodSchemas
