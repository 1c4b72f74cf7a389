import Mathlib.Logic.Basic
import ZodSchemas.Expr.Basic

namespace ZodSchemas.Expr

/-!
# Traversals with a stack

The nodes of an expression are met with a stack of what is left, and with such a
stack the references of a name are searched for one that no deferred binding
encloses.  The place of a node says which child has to be taken at each step from
the root.  The first traversal meets the node of every place, in the order of the
places; the second one is exact about the places of references.
-/

/-! ## The walk by structure -/

theorem nodesFrom_eq_walkAll
    (stack : List Expr) :
    nodesFrom stack = walkAll stack := by
  induction stack using nodesFrom.induct with
  | case1 =>
      rw [nodesFrom, walkAll]
  | case2 node rest inductionHypothesis =>
      rw [nodesFrom, inductionHypothesis, walkAll_append, walkAll, walk_eq, List.cons_append]

/-- The nodes that are met are those of the walk by structure. -/
@[simp] theorem nodes_eq_walk
    (expr : Expr) :
    expr.nodes = expr.walk := by
  rw [nodes, nodesFrom_eq_walkAll, walkAll, walkAll, List.append_nil]

theorem references_enumeration
    (values : List String) :
    (Expr.enumeration values).references = [] := by
  rw [references, occurrences, nodes_eq_walk]
  rfl

theorem usesJson_enumeration
    (values : List String) :
    (Expr.enumeration values).usesJson = false := by
  rw [usesJson, nodes_eq_walk]
  rfl

/-- What an expression inherits from its children holds of every expression. -/
theorem holds_of_children
    {holds : Expr → Prop}
    (inherits : ∀ expr : Expr, (∀ child ∈ expr.children, holds child) → holds expr)
    (expr : Expr) :
    holds expr := by
  refine inherits expr fun child member => ?_
  have smaller : child.walk.length < expr.walk.length := by
    obtain ⟨earlier, later, shape⟩ := List.append_of_mem member
    rw [walk_eq expr, shape, walkAll_append, walkAll, List.length_cons, List.length_append,
      List.length_append]
    omega
  exact holds_of_children inherits child
termination_by expr.walk.length

/-! ## Places of nodes -/

/-- The node at a place. -/
def nodeAt? : Expr → List Nat → Option Expr
  | expr, [] => some expr
  | expr, index :: place => expr.children[index]?.bind (nodeAt? · place)

/-- The node at a place below some children. -/
def nodeBelow? (members : List Expr) : List Nat → Option Expr
  | [] => none
  | index :: place => members[index]?.bind (nodeAt? · place)

/-- The nodes of all places, in the order of these: an outer node before those inside it, and what
is in a child before what is in a later one. -/
structure ListsAllPlaces (at? : List Nat → Option Expr) (places : List (List Nat))
    (nodes : List Expr) : Prop where
  complete : ∀ place, place ∈ places ↔ (at? place).isSome = true
  ordered : places.Pairwise (· < ·)
  nodes : places.map at? = nodes.map some

/-- A place below some children, as it is with one more child in front. -/
def later : List Nat → List Nat
  | [] => []
  | index :: place => (index + 1) :: place

theorem nodeBelow?_later
    (first : Expr)
    (rest : List Expr)
    (place : List Nat) :
    nodeBelow? (first :: rest) (later place) = nodeBelow? rest place := by
  cases place <;> rfl

theorem later_lt_later
    {place other : List Nat}
    (less : place < other) :
    later place < later other := by
  cases less with
  | nil =>
      exact .nil
  | rel less =>
      exact .rel (Nat.succ_lt_succ less)
  | cons less =>
      exact .cons less

/-- The root lies below no child. -/
theorem ListsAllPlaces.root_not_mem
    {members nodes : List Expr}
    {places : List (List Nat)}
    (lists : ListsAllPlaces (nodeBelow? members) places nodes) :
    [] ∉ places := fun member => by
  have isThere := (lists.complete []).mp member
  contradiction

/-- What each of some children lists makes up what they list together. -/
theorem exists_listsAllPlaces_below
    {members : List Expr}
    (each : ∀ member ∈ members, ∃ places, ListsAllPlaces member.nodeAt? places member.walk) :
    ∃ places, ListsAllPlaces (nodeBelow? members) places (walkAll members) := by
  induction members with
  | nil =>
      refine ⟨[], fun place => ?_, .nil, rfl⟩
      cases place <;> simp [nodeBelow?]
  | cons first rest inductionHypothesis =>
      rw [List.forall_mem_cons] at each
      obtain ⟨inFirst, listsFirst⟩ := each.1
      obtain ⟨inRest, listsRest⟩ := inductionHypothesis each.2
      have notRoot := listsRest.root_not_mem
      refine ⟨inFirst.map (0 :: ·) ++ inRest.map later, fun place => ?_, ?_, ?_⟩
      · rw [List.mem_append, List.mem_map, List.mem_map]
        rcases place with _ | ⟨_ | index, place⟩
        · constructor
          · rintro (⟨_, -, isRoot⟩ | ⟨_ | _, member, isRoot⟩)
            · contradiction
            · exact absurd member notRoot
            · contradiction
          · intro isThere
            contradiction
        · change _ ↔ (first.nodeAt? place).isSome = true
          rw [← listsFirst.complete]
          constructor
          · rintro (⟨_, member, isPlace⟩ | ⟨_ | _, member, isPlace⟩)
            · cases isPlace
              exact member
            · contradiction
            · cases isPlace
          · exact fun member => .inl ⟨place, member, rfl⟩
        · change _ ↔ (nodeBelow? rest (index :: place)).isSome = true
          rw [← listsRest.complete]
          constructor
          · rintro (⟨_, -, isPlace⟩ | ⟨_ | _, member, isPlace⟩)
            · cases isPlace
            · contradiction
            · cases isPlace
              exact member
          · exact fun member => .inr ⟨index :: place, member, rfl⟩
      · rw [List.pairwise_append, List.pairwise_map, List.pairwise_map]
        refine ⟨listsFirst.ordered.imp .cons, listsRest.ordered.imp later_lt_later, ?_⟩
        intro place isFirst other isLater
        obtain ⟨inner, -, rfl⟩ := List.mem_map.mp isFirst
        obtain ⟨_ | ⟨index, outer⟩, member, rfl⟩ := List.mem_map.mp isLater
        · exact absurd member notRoot
        · exact .rel (Nat.succ_pos index)
      · rw [walkAll, List.map_append, List.map_append, List.map_map, List.map_map,
          ← listsFirst.nodes, ← listsRest.nodes]
        congr 1
        exact List.map_congr_left fun place _ => nodeBelow?_later first rest place

/-- The walk by structure meets the nodes of all places in their order. -/
theorem exists_listsAllPlaces
    (expr : Expr) :
    ∃ places, ListsAllPlaces expr.nodeAt? places expr.walk := by
  induction expr using holds_of_children with
  | inherits expr inductionHypothesis =>
      obtain ⟨below, lists⟩ := exists_listsAllPlaces_below inductionHypothesis
      have atRoot {place : List Nat} (member : place ∈ below) :
          expr.nodeAt? place = nodeBelow? expr.children place := by
        cases place with
        | nil =>
            exact absurd member lists.root_not_mem
        | cons index place =>
            rfl
      refine ⟨[] :: below, fun place => ?_, ?_, ?_⟩
      · cases place with
        | nil =>
            exact iff_of_true (.head _) rfl
        | cons index place =>
            rw [List.mem_cons, or_iff_right (List.cons_ne_nil _ _), lists.complete]
            rfl
      · refine .cons (fun place member => ?_) lists.ordered
        cases place with
        | nil =>
            exact absurd member lists.root_not_mem
        | cons index place =>
            exact .nil
      · rw [walk_eq, List.map_cons, List.map_cons, ← lists.nodes]
        congr 1
        exact List.map_congr_left fun place => atRoot

/-! ## References below deferred bindings -/

/-- A reference of a name stands at a place. -/
def RefersAt (name : String) (expr : Expr) (place : List Nat) : Prop :=
  ∃ target, expr.nodeAt? place = some (.reference target) ∧ target.name = name

/-- A name is referenced somewhere. -/
def Mentions (name : String) (expr : Expr) : Prop :=
  ∃ place, expr.RefersAt name place

/-- A deferred binding stands on the way from the root to a place. -/
def DefersOnWay (expr : Expr) (place : List Nat) : Prop :=
  ∃ outer inner hostType, outer <+: place ∧ expr.nodeAt? outer = some (.deferred inner hostType)

/-- The way to every reference of a name passes through a deferred binding. -/
def DefersAll (name : String) (expr : Expr) : Prop :=
  ∀ place, expr.RefersAt name place → expr.DefersOnWay place

theorem refersTo_iff
    {name : String}
    {expr : Expr} :
    expr.refersTo name = true ↔ expr.RefersAt name [] := by
  cases expr <;> simp [refersTo, RefersAt, nodeAt?]

theorem defers_iff
    {expr : Expr} :
    expr.defers = true ↔ ∃ inner hostType, expr = .deferred inner hostType := by
  cases expr <;> simp [defers]

theorem refersAt_cons_iff
    {name : String}
    {expr : Expr}
    {index : Nat}
    {place : List Nat} :
    expr.RefersAt name (index :: place) ↔
      ∃ child, expr.children[index]? = some child ∧ child.RefersAt name place := by
  simp only [RefersAt, nodeAt?, Option.bind_eq_some_iff]
  constructor
  · rintro ⟨target, ⟨child, isChild, isTarget⟩, named⟩
    exact ⟨child, isChild, target, isTarget, named⟩
  · rintro ⟨child, isChild, target, isTarget, named⟩
    exact ⟨target, ⟨child, isChild, isTarget⟩, named⟩

theorem defersOnWay_cons_iff
    {expr child : Expr}
    {index : Nat}
    (isChild : expr.children[index]? = some child)
    {place : List Nat} :
    expr.DefersOnWay (index :: place) ↔ expr.defers = true ∨ child.DefersOnWay place := by
  have below (outer : List Nat) : expr.nodeAt? (index :: outer) = child.nodeAt? outer := by
    rw [nodeAt?, isChild, Option.bind_some]
  rw [defers_iff]
  constructor
  · rintro ⟨outer, inner, hostType, onWay, isDeferred⟩
    rcases List.prefix_cons_iff.mp onWay with rfl | ⟨outerToo, rfl, onWayToo⟩
    · exact .inl ⟨inner, hostType, Option.some.inj isDeferred⟩
    · exact .inr ⟨outerToo, inner, hostType, onWayToo, below outerToo ▸ isDeferred⟩
  · rintro (⟨inner, hostType, rfl⟩ | ⟨outer, inner, hostType, onWay, isDeferred⟩)
    · exact ⟨[], inner, hostType, List.nil_prefix, rfl⟩
    · exact ⟨index :: outer, inner, hostType, (List.prefix_cons_inj index).mpr onWay,
        (below outer).trans isDeferred⟩

theorem mentions_iff
    {name : String}
    {expr : Expr} :
    expr.Mentions name ↔
      expr.refersTo name = true ∨ ∃ child ∈ expr.children, child.Mentions name := by
  rw [refersTo_iff]
  constructor
  · rintro ⟨_ | ⟨index, place⟩, refers⟩
    · exact .inl refers
    · obtain ⟨child, isChild, refersToo⟩ := refersAt_cons_iff.mp refers
      exact .inr ⟨child, List.mem_of_getElem? isChild, place, refersToo⟩
  · rintro (refers | ⟨child, member, place, refers⟩)
    · exact ⟨[], refers⟩
    · obtain ⟨index, isChild⟩ := List.mem_iff_getElem?.mp member
      exact ⟨index :: place, refersAt_cons_iff.mpr ⟨child, isChild, refers⟩⟩

/-- A node that is not deferred itself leaves it to its children to be so. -/
theorem defersAll_iff
    {name : String}
    {expr : Expr} :
    expr.DefersAll name ↔
      expr.defers = true ∨
        expr.refersTo name = false ∧ ∀ child ∈ expr.children, child.DefersAll name := by
  constructor
  · intro defersAll
    by_cases deferred : expr.defers = true
    · exact .inl deferred
    · refine .inr ⟨?_, fun child member place refers => ?_⟩
      · rw [Bool.eq_false_iff, ne_eq, refersTo_iff]
        intro refers
        obtain ⟨outer, inner, hostType, onWay, isDeferred⟩ := defersAll [] refers
        rw [List.prefix_nil.mp onWay] at isDeferred
        exact deferred (defers_iff.mpr ⟨inner, hostType, Option.some.inj isDeferred⟩)
      · obtain ⟨index, isChild⟩ := List.mem_iff_getElem?.mp member
        have onWay := defersAll (index :: place) (refersAt_cons_iff.mpr ⟨child, isChild, refers⟩)
        exact ((defersOnWay_cons_iff isChild).mp onWay).resolve_left deferred
  · rintro (deferred | ⟨noReference, defersBelow⟩) place refers
    · obtain ⟨inner, hostType, rfl⟩ := defers_iff.mp deferred
      exact ⟨[], inner, hostType, List.nil_prefix, rfl⟩
    · cases place with
      | nil =>
          rw [← refersTo_iff, noReference] at refers
          contradiction
      | cons index place =>
          obtain ⟨child, isChild, refersToo⟩ := refersAt_cons_iff.mp refers
          exact (defersOnWay_cons_iff isChild).mpr
            (.inr (defersBelow child (List.mem_of_getElem? isChild) place refersToo))

/-- A search of a stack answers whether the name has been found or is mentioned in the stack, and
whether every reference to it there lies below a deferred binding. -/
theorem deferralFrom_iff
    {name : String}
    {found : Bool}
    {stack : List (Expr × Bool)} :
    deferralFrom name found stack = true ↔
      (found = true ∨ ∃ entry ∈ stack, entry.1.Mentions name) ∧
        ∀ entry ∈ stack, entry.2 = true ∨ entry.1.DefersAll name := by
  induction found, stack using deferralFrom.induct name with
  | case1 found =>
      simp [deferralFrom]
  | case2 found node enclosed rest exposed =>
      rw [deferralFrom, if_pos exposed]
      rw [Bool.and_eq_true, Bool.not_eq_true'] at exposed
      refine iff_of_false Bool.false_ne_true fun ⟨_, defersAll⟩ => ?_
      have atNode := (defersAll (node, enclosed) (.head _)).resolve_left (by simp [exposed.2])
      rcases defersAll_iff.mp atNode with deferred | ⟨noReference, -⟩
      · obtain ⟨inner, hostType, rfl⟩ := defers_iff.mp deferred
        exact absurd exposed.1 (by simp [refersTo])
      · exact absurd exposed.1 (by simp [noReference])
  | case3 found node enclosed rest notExposed inductionHypothesis =>
      have mentionsBelow :
          ((found || node.refersTo name) = true ∨
              ∃ child ∈ node.children, child.Mentions name) ↔
            found = true ∨ node.Mentions name := by
        rw [mentions_iff, Bool.or_eq_true, or_assoc]
      have defersBelow :
          (∀ child ∈ node.children, (enclosed || node.defers) = true ∨ child.DefersAll name) ↔
            enclosed = true ∨ node.DefersAll name := by
        rw [defersAll_iff]
        cases enclosed <;> cases node.defers <;> simp_all
      have mentionedIn :
          (∃ entry ∈ node.children.reverse.map (·, enclosed || node.defers) ++ rest,
              entry.1.Mentions name) ↔
            (∃ child ∈ node.children, child.Mentions name) ∨
              ∃ entry ∈ rest, entry.1.Mentions name := by
        simp only [List.mem_append, or_and_right, exists_or, List.mem_map, List.mem_reverse,
          exists_exists_and_eq_and]
      have deferredIn :
          (∀ entry ∈ node.children.reverse.map (·, enclosed || node.defers) ++ rest,
              entry.2 = true ∨ entry.1.DefersAll name) ↔
            (∀ child ∈ node.children, (enclosed || node.defers) = true ∨ child.DefersAll name) ∧
              ∀ entry ∈ rest, entry.2 = true ∨ entry.1.DefersAll name := by
        rw [List.forall_mem_append, List.forall_mem_map]
        simp only [List.mem_reverse]
      rw [deferralFrom, if_neg notExposed, inductionHypothesis, mentionedIn, deferredIn,
        ← or_assoc, mentionsBelow, defersBelow, List.forall_mem_cons]
      simp only [List.mem_cons, exists_eq_or_imp, or_assoc]

/-- The search is exact: it answers whether a name is referenced, and only below deferred bindings.
The traversal meets the node of every place, in their order. -/
theorem isDeferred_iff_and_exists_listsAllPlaces
    (expr : Expr)
    (name : String) :
    (expr.isDeferred name = true ↔
        (∃ place, expr.RefersAt name place) ∧
          ∀ place, expr.RefersAt name place → expr.DefersOnWay place) ∧
      expr.nodes = expr.walk ∧
      ∃ places, ListsAllPlaces expr.nodeAt? places expr.nodes := by
  refine ⟨?_, nodes_eq_walk expr, nodes_eq_walk expr ▸ exists_listsAllPlaces expr⟩
  rw [isDeferred, deferralFrom_iff]
  simp [Mentions, DefersAll]

end ZodSchemas.Expr
