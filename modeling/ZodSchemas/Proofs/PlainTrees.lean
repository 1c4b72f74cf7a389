import Mathlib.Data.List.Induction
import ZodSchemas.FileTree.Basic

namespace ZodSchemas.FileTree

/-!
# Trees without links

In a tree without links every entry stands in a directory, and a path leads where
its names say: each of them one level down, or up for `..`.  What stands where
is all that counts; the order of the entries shows nowhere.
-/

theorem get?_root
    (tree : FileTree) :
    tree.get? [] = some .directory :=
  rfl

theorem get?_of_ne_root
    {tree : FileTree}
    {place : Place}
    (notRoot : place ≠ []) :
    tree.get? place = tree.entries.lookup place :=
  if_neg notRoot

theorem lookup_cons_place
    (place here : Place)
    (entry : FileEntry)
    (rest : List (Place × FileEntry)) :
    List.lookup place ((here, entry) :: rest) =
      if place = here then some entry else rest.lookup place := by
  by_cases same : place = here
  · rw [if_pos same, List.lookup_cons, beq_iff_eq.mpr same]
  · rw [if_neg same, List.lookup_cons, beq_false_of_ne same]

theorem lookup_putEntry
    (place other : Place)
    (entry : FileEntry)
    (entries : List (Place × FileEntry)) :
    (putEntry place entry entries).lookup other =
      if other = place then some entry else entries.lookup other := by
  induction entries with
  | nil =>
      rw [putEntry, lookup_cons_place]
  | cons first rest inductionHypothesis =>
      obtain ⟨here, old⟩ := first
      rw [putEntry]
      by_cases isHere : here = place
      · rw [if_pos isHere, isHere, lookup_cons_place, lookup_cons_place]
        split <;> rfl
      · rw [if_neg isHere, lookup_cons_place, lookup_cons_place, inductionHypothesis]
        by_cases same : other = here
        · rw [if_pos same, if_pos same, if_neg (same ▸ isHere)]
        · rw [if_neg same, if_neg same]

theorem get?_put
    {place : Place}
    (notRoot : place ≠ [])
    (tree : FileTree)
    (entry : FileEntry)
    (other : Place) :
    (tree.put place entry).get? other = if other = place then some entry else tree.get? other := by
  by_cases isRoot : other = []
  · subst isRoot
    rw [if_neg (Ne.symm notRoot)]
    rfl
  · rw [get?_of_ne_root isRoot, get?_of_ne_root isRoot]
    exact lookup_putEntry place other entry tree.entries

theorem get?_put_concat
    (tree : FileTree)
    (place : Place)
    (name : String)
    (entry : FileEntry) :
    (tree.put (place ++ [name]) entry).get? (place ++ [name]) = some entry := by
  rw [get?_put (by simp), if_pos rfl]

theorem lookup_filter
    (keeps : Place → Bool)
    (entries : List (Place × FileEntry))
    (place : Place) :
    (entries.filter fun entry => keeps entry.1).lookup place =
      if keeps place then entries.lookup place else none := by
  induction entries with
  | nil =>
      exact (ite_self none).symm
  | cons first rest inductionHypothesis =>
      obtain ⟨here, entry⟩ := first
      rw [List.filter_cons, lookup_cons_place]
      by_cases kept : keeps here = true
      · rw [if_pos kept, lookup_cons_place, inductionHypothesis]
        by_cases same : place = here
        · rw [if_pos same, if_pos same, same, if_pos kept]
        · rw [if_neg same, if_neg same]
      · rw [if_neg kept, inductionHypothesis]
        by_cases same : place = here
        · rw [same, if_neg kept, if_neg kept]
        · rw [if_neg same]

theorem get?_remove
    {place other : Place}
    (notRoot : other ≠ [])
    (tree : FileTree) :
    (tree.remove place).get? other =
      if place.isPrefixOf other then none else tree.get? other := by
  rw [get?_of_ne_root notRoot, get?_of_ne_root notRoot]
  change (tree.entries.filter fun entry => !place.isPrefixOf entry.1).lookup other = _
  rw [lookup_filter fun place' => !place.isPrefixOf place']
  by_cases below : place.isPrefixOf other = true <;> simp [below]

theorem get?_remove_of_apart
    {place other : Place}
    (apart : ¬ place <+: other)
    (tree : FileTree) :
    (tree.remove place).get? other = tree.get? other := by
  by_cases isRoot : other = []
  · rw [isRoot, get?_root, get?_root]
  · rw [get?_remove isRoot, if_neg (mt List.isPrefixOf_iff_prefix.mp apart)]

/-- Whether what stands at a place is a directory, if anything stands there. -/
def directory? (tree : FileTree) (place : Place) : Option Bool :=
  (tree.get? place).map (· == .directory)

theorem directory?_eq_some_true_iff
    {tree : FileTree}
    {place : Place} :
    tree.directory? place = some true ↔ tree.get? place = some .directory := by
  simp [directory?]

theorem directory?_eq_none_iff
    {tree : FileTree}
    {place : Place} :
    tree.directory? place = none ↔ tree.get? place = none :=
  Option.map_eq_none_iff

/-- Every entry stands in a directory. -/
def IsConnected (tree : FileTree) : Prop :=
  ∀ place name entry,
    tree.get? (place ++ [name]) = some entry → tree.get? place = some .directory

/-- Nothing stands below a place that holds no directory. -/
theorem IsConnected.get?_append_eq_none
    {tree : FileTree}
    (connected : tree.IsConnected)
    {place : Place}
    (nothing : tree.get? place ≠ some .directory)
    {rest : Place}
    (below : rest ≠ []) :
    tree.get? (place ++ rest) = none := by
  induction rest using List.reverseRecOn with
  | nil =>
      exact absurd rfl below
  | append_singleton earlier name inductionHypothesis =>
      rw [← List.append_assoc]
      by_contra found
      obtain ⟨entry, isEntry⟩ := Option.ne_none_iff_exists'.mp found
      have isDirectory := connected _ _ _ isEntry
      by_cases direct : earlier = []
      · rw [direct, List.append_nil] at isDirectory
        exact nothing isDirectory
      · rw [inductionHypothesis direct] at isDirectory
        contradiction

/-- A tree without links: each entry is a directory or a file, and stands in a directory. -/
structure IsPlain (tree : FileTree) : Prop where
  noLink : ∀ place target, tree.get? place ≠ some (.link target)
  inDirectory : ∀ place name entry,
    tree.get? (place ++ [name]) = some entry → tree.get? place = some .directory

/-- What stands at a place that is not the root is one of the entries. -/
theorem mem_entries
    {tree : FileTree}
    {place : Place}
    {entry : FileEntry}
    (notRoot : place ≠ [])
    (found : tree.get? place = some entry) :
    (place, entry) ∈ tree.entries := by
  rw [get?_of_ne_root notRoot] at found
  obtain ⟨earlier, later, shape, -⟩ := List.lookup_eq_some_iff.mp found
  rw [shape]
  exact List.mem_append_right earlier (.head later)

/-- Whether the entries of a tree stand in directories. -/
def hasConnectedEntries (tree : FileTree) : Bool :=
  tree.entries.all fun entry => tree.get? entry.1.dropLast == some .directory

theorem isConnected_of_hasConnectedEntries
    {tree : FileTree}
    (connectedEntries : tree.hasConnectedEntries = true) :
    tree.IsConnected := by
  intro place name entry found
  have outer := List.all_eq_true.mp connectedEntries _ (mem_entries (by simp) found)
  rwa [List.dropLast_concat, beq_iff_eq] at outer

/-- Whether the entries of a tree are no links and stand in directories. -/
def hasPlainEntries (tree : FileTree) : Bool :=
  tree.entries.all fun entry =>
    match entry.2 with
    | .link _ => false
    | .directory | .file _ => tree.get? entry.1.dropLast == some .directory

theorem isPlain_of_hasPlainEntries
    {tree : FileTree}
    (plainEntries : tree.hasPlainEntries = true) :
    tree.IsPlain := by
  have checked := List.all_eq_true.mp plainEntries
  constructor
  · intro place target isLink
    by_cases isRoot : place = []
    · rw [isRoot, get?_root] at isLink
      cases isLink
    · exact absurd (checked _ (mem_entries isRoot isLink)) Bool.false_ne_true
  · refine isConnected_of_hasConnectedEntries (List.all_eq_true.mpr fun entry member => ?_)
    have atEntry := checked entry member
    obtain ⟨place, _ | _ | _⟩ := entry
    · exact atEntry
    · exact atEntry
    · contradiction

namespace IsPlain

variable {tree : FileTree}

theorem directory?_eq_some_false_iff
    (plain : tree.IsPlain)
    {place : Place} :
    tree.directory? place = some false ↔ ∃ bytes, tree.get? place = some (.file bytes) := by
  cases found : tree.get? place with
  | none =>
      simp [directory?, found]
  | some entry =>
      cases entry with
      | directory =>
          simp [directory?, found]
      | file bytes =>
          simp [directory?, found]
      | link target =>
          exact absurd found (plain.noLink place target)

theorem dropLast
    (plain : tree.IsPlain)
    {place : Place}
    (isDirectory : tree.get? place = some .directory) :
    tree.get? place.dropLast = some .directory := by
  rcases List.eq_nil_or_concat place with isRoot | ⟨outer, name, shape⟩
  · rw [isRoot]
    rfl
  · rw [List.concat_eq_append] at shape
    rw [shape, List.dropLast_concat]
    exact plain.inDirectory outer name _ (shape ▸ isDirectory)

theorem isConnected
    (plain : tree.IsPlain) :
    tree.IsConnected :=
  plain.inDirectory

theorem get?_append_eq_none
    (plain : tree.IsPlain)
    {place : Place}
    (nothing : tree.get? place ≠ some .directory)
    {rest : Place}
    (below : rest ≠ []) :
    tree.get? (place ++ rest) = none :=
  plain.isConnected.get?_append_eq_none nothing below

/-- A directory or a file that is put into a directory leaves a tree without links, unless it
takes the place of a directory. -/
theorem put
    (plain : tree.IsPlain)
    {place : Place}
    {name : String}
    {entry : FileEntry}
    (outer : tree.get? place = some .directory)
    (noLinkPut : ∀ target, entry ≠ .link target)
    (replaceable : entry = .directory ∨ tree.get? (place ++ [name]) ≠ some .directory) :
    (tree.put (place ++ [name]) entry).IsPlain := by
  have notRoot : place ++ [name] ≠ [] := by
    simp
  constructor
  · intro other target
    rw [get?_put notRoot]
    split
    · exact fun isLink => noLinkPut target (Option.some.inj isLink)
    · exact plain.noLink other target
  · intro other last otherEntry found
    rw [get?_put notRoot] at found ⊢
    split at found
    · rename_i same
      obtain ⟨rfl, -⟩ := List.append_inj' same rfl
      split
      · rename_i isSelf
        simp at isSelf
      · exact outer
    · have isDirectory := plain.inDirectory other last otherEntry found
      split
      · rename_i isPlace
        rcases replaceable with isDirectoryPut | noDirectory
        · rw [isDirectoryPut]
        · exact absurd (isPlace ▸ isDirectory) noDirectory
      · exact isDirectory

theorem put_directory
    (plain : tree.IsPlain)
    {place : Place}
    (outer : tree.get? place = some .directory)
    (name : String) :
    (tree.put (place ++ [name]) .directory).IsPlain :=
  plain.put outer nofun (.inl rfl)

theorem remove
    (plain : tree.IsPlain)
    (place : Place) :
    (tree.remove place).IsPlain := by
  constructor
  · intro other target found
    by_cases isRoot : other = []
    · rw [isRoot, get?_root] at found
      cases found
    · rw [get?_remove isRoot] at found
      split at found
      · contradiction
      · exact plain.noLink other target found
  · intro other name entry found
    rw [get?_remove (by simp)] at found
    split at found
    · contradiction
    · rename_i apart
      rw [List.isPrefixOf_iff_prefix] at apart
      rw [get?_remove_of_apart fun below => apart (below.trans (List.prefix_append other [name]))]
      exact plain.inDirectory other name entry found

end IsPlain

/-- Every place that holds something in a tree holds something of the same kind in a later one. -/
def GrowsTo (tree later : FileTree) : Prop :=
  ∀ place kind, tree.directory? place = some kind → later.directory? place = some kind

namespace GrowsTo

theorem refl
    (tree : FileTree) :
    tree.GrowsTo tree :=
  fun _ _ found => found

theorem trans
    {tree middle later : FileTree}
    (first : tree.GrowsTo middle)
    (second : middle.GrowsTo later) :
    tree.GrowsTo later :=
  fun place kind found => second place kind (first place kind found)

theorem get?_directory
    {tree later : FileTree}
    (grows : tree.GrowsTo later)
    {place : Place}
    (isDirectory : tree.get? place = some .directory) :
    later.get? place = some .directory :=
  directory?_eq_some_true_iff.mp (grows place true (directory?_eq_some_true_iff.mpr isDirectory))

end GrowsTo

theorem directory?_put
    {place : Place}
    (notRoot : place ≠ [])
    (tree : FileTree)
    (entry : FileEntry)
    (other : Place) :
    (tree.put place entry).directory? other =
      if other = place then some (entry == .directory) else tree.directory? other := by
  rw [directory?, get?_put notRoot]
  split <;> rfl

theorem growsTo_put
    {tree : FileTree}
    {place : Place}
    {entry : FileEntry}
    (notRoot : place ≠ [])
    (sameKind : ∀ kind, tree.directory? place = some kind → kind = (entry == .directory)) :
    tree.GrowsTo (tree.put place entry) := by
  intro other kind found
  rw [directory?_put notRoot]
  split
  · rename_i isPlace
    rw [sameKind kind (isPlace ▸ found)]
  · exact found

/-! ## Paths in a tree without links -/

/-- Where a name leads to from a directory, and what stands there. -/
def stepTo (tree : FileTree) (directory : Place) (name : String) : Except Refusal Located :=
  if name = ".." then .ok ⟨directory.dropLast, tree.get? directory.dropLast⟩
  else if nameLimit < Text.nameSize name then .error .nameTooLong
  else .ok ⟨directory ++ [name], tree.get? (directory ++ [name])⟩

/-- The directory that names lead to, or why they lead to none. -/
def reach (tree : FileTree) (directory : Place) : List String → Except Refusal Place
  | [] => .ok directory
  | name :: rest =>
      match tree.stepTo directory name with
      | .ok ⟨place, some .directory⟩ => tree.reach place rest
      | .ok ⟨_, some _⟩ => .error .notDirectory
      | .ok ⟨_, none⟩ => .error .missing
      | .error refusal => .error refusal

/-- The names of a path are neither empty nor the current directory. -/
def AreSteps (names : List String) : Prop :=
  ∀ name ∈ names, name ≠ "" ∧ name ≠ "."

/-- The three ends that a step from a directory can have. -/
theorem stepTo_cases
    {tree : FileTree}
    (plain : tree.IsPlain)
    {directory : Place}
    (isDirectory : tree.get? directory = some .directory)
    (name : String) :
    tree.stepTo directory name = .error .nameTooLong ∨
      (∃ place, tree.stepTo directory name = .ok ⟨place, some .directory⟩ ∧
        tree.get? place = some .directory) ∨
      (∃ bytes, tree.stepTo directory name = .ok ⟨directory ++ [name], some (.file bytes)⟩ ∧
        tree.get? (directory ++ [name]) = some (.file bytes)) ∨
      (tree.stepTo directory name = .ok ⟨directory ++ [name], none⟩ ∧
        tree.get? (directory ++ [name]) = none) := by
  unfold stepTo
  split
  · rw [plain.dropLast isDirectory]
    exact .inr (.inl ⟨_, rfl, plain.dropLast isDirectory⟩)
  · split
    · exact .inl rfl
    · cases found : tree.get? (directory ++ [name]) with
      | none =>
          exact .inr (.inr (.inr ⟨rfl, rfl⟩))
      | some entry =>
          cases entry with
          | directory =>
              exact .inr (.inl ⟨_, rfl, found⟩)
          | file bytes =>
              exact .inr (.inr (.inl ⟨bytes, rfl, rfl⟩))
          | link target =>
              exact absurd found (plain.noLink _ _)

/-- Where a step leads does not depend on the tree. -/
theorem stepTo_of_stepTo
    {tree : FileTree}
    {directory place : Place}
    {name : String}
    {entry : Option FileEntry}
    (isStep : tree.stepTo directory name = .ok ⟨place, entry⟩)
    (later : FileTree) :
    later.stepTo directory name = .ok ⟨place, later.get? place⟩ := by
  unfold stepTo at isStep ⊢
  split at isStep
  · rename_i isUp
    cases isStep
    rw [if_pos isUp]
  · rename_i notUp
    split at isStep
    · contradiction
    · rename_i short
      cases isStep
      rw [if_neg notUp, if_neg short]

/-- The last name of a path leads where a step leads. -/
theorem follow_singleton
    {tree : FileTree}
    (plain : tree.IsPlain)
    (access : Access)
    (links : Nat)
    (directory : Place)
    {name : String}
    (areSteps : AreSteps [name]) :
    tree.follow access links directory [name] = tree.stepTo directory name := by
  have isStep := areSteps name (.head _)
  rw [follow, if_neg (not_or.mpr ⟨isStep.2, isStep.1⟩), stepTo]
  split
  · rw [follow]
  · rw [if_neg (by simp)]
    split
    · rfl
    · dsimp only
      cases found : tree.get? (directory ++ [name]) with
      | none =>
          rfl
      | some entry =>
          cases entry with
          | directory =>
              change tree.follow access links (directory ++ [name]) [] = _
              rw [follow, found]
          | file bytes =>
              rfl
          | link target =>
              exact absurd found (plain.noLink _ _)

/-- A path goes on behind a step, if that leads to a directory. -/
theorem follow_cons
    {tree : FileTree}
    (plain : tree.IsPlain)
    (access : Access)
    (links : Nat)
    {directory : Place}
    (isDirectory : tree.get? directory = some .directory)
    {name : String}
    {rest : List String}
    (areSteps : AreSteps (name :: rest))
    (more : rest ≠ []) :
    tree.follow access links directory (name :: rest) =
      match tree.stepTo directory name with
      | .ok ⟨place, some .directory⟩ => tree.follow access links place rest
      | .ok ⟨_, some _⟩ => .error .notDirectory
      | .ok ⟨_, none⟩ => .error .missing
      | .error refusal => .error refusal := by
  have isStep := areSteps name (.head _)
  have noSlash : ¬ (access = .creation ∧ rest = [""]) := by
    rintro ⟨-, ended⟩
    exact (areSteps "" (by simp [ended])).1 rfl
  have notLast : rest.isEmpty = false := by
    simpa using more
  rw [follow, if_neg (not_or.mpr ⟨isStep.2, isStep.1⟩), stepTo]
  split
  · rw [plain.dropLast isDirectory]
  · split
    · rfl
    · dsimp only
      cases found : tree.get? (directory ++ [name]) with
      | none =>
          simp [notLast]
      | some entry =>
          cases entry with
          | directory =>
              rfl
          | file bytes =>
              simp [notLast]
          | link target =>
              exact absurd found (plain.noLink _ _)

/-- A path is followed first to the directory that its names in front lead to. -/
theorem follow_append
    {tree : FileTree}
    (plain : tree.IsPlain)
    (access : Access)
    (links : Nat)
    {directory : Place}
    (isDirectory : tree.get? directory = some .directory)
    {names rest : List String}
    (areSteps : AreSteps (names ++ rest))
    (more : rest ≠ []) :
    tree.follow access links directory (names ++ rest) =
      match tree.reach directory names with
      | .ok place => tree.follow access links place rest
      | .error refusal => .error refusal := by
  induction names generalizing directory with
  | nil =>
      rfl
  | cons name names inductionHypothesis =>
      have stepsBehind : AreSteps (names ++ rest) := fun other member =>
        areSteps other (.tail _ member)
      rw [List.cons_append] at areSteps ⊢
      rw [follow_cons plain access links isDirectory areSteps (by simp [more]), reach]
      rcases stepTo_cases plain isDirectory name with
        tooLong | ⟨place, isInner, found⟩ | ⟨bytes, isFile, -⟩ | ⟨isMissing, -⟩
      · rw [tooLong]
      · rw [isInner]
        exact inductionHypothesis found stepsBehind
      · rw [isFile]
      · rw [isMissing]

theorem get?_of_reach
    {tree : FileTree}
    (plain : tree.IsPlain)
    {directory place : Place}
    {names : List String}
    (isDirectory : tree.get? directory = some .directory)
    (reached : tree.reach directory names = .ok place) :
    tree.get? place = some .directory := by
  induction names generalizing directory with
  | nil =>
      cases reached
      exact isDirectory
  | cons name names inductionHypothesis =>
      rw [reach] at reached
      rcases stepTo_cases plain isDirectory name with
        tooLong | ⟨inner, isInner, found⟩ | ⟨bytes, isFile, -⟩ | ⟨isMissing, -⟩
      · rw [tooLong] at reached
        contradiction
      · rw [isInner] at reached
        exact inductionHypothesis found reached
      · rw [isFile] at reached
        contradiction
      · rw [isMissing] at reached
        contradiction

theorem reach_append
    (tree : FileTree)
    (start : Place)
    (names rest : List String) :
    tree.reach start (names ++ rest) =
      match tree.reach start names with
      | .ok place => tree.reach place rest
      | .error refusal => .error refusal := by
  induction names generalizing start with
  | nil =>
      rfl
  | cons name names inductionHypothesis =>
      rw [List.cons_append, reach, reach]
      split
      · exact inductionHypothesis _
      all_goals rfl

/-- A name other than `..` leads one level down, unless it is too long. -/
theorem stepTo_down
    {tree : FileTree}
    {directory : Place}
    {name : String}
    (down : name ≠ "..") :
    (∃ refusal, tree.stepTo directory name = .error refusal) ∧ nameLimit < Text.nameSize name ∨
      tree.stepTo directory name =
          .ok ⟨directory ++ [name], tree.get? (directory ++ [name])⟩ ∧
        Text.nameSize name ≤ nameLimit := by
  rw [stepTo, if_neg down]
  split
  · rename_i tooLong
    exact .inl ⟨⟨_, rfl⟩, tooLong⟩
  · rename_i short
    exact .inr ⟨rfl, Nat.not_lt.mp short⟩

theorem place_of_stepTo
    {tree : FileTree}
    {directory place : Place}
    {name : String}
    {entry : Option FileEntry}
    (down : name ≠ "..")
    (isStep : tree.stepTo directory name = .ok ⟨place, entry⟩) :
    place = directory ++ [name] := by
  rcases @stepTo_down tree directory name down with ⟨⟨refusal, isError⟩, -⟩ | ⟨isDown, -⟩
  · rw [isError] at isStep
    contradiction
  · rw [isDown] at isStep
    cases isStep
    rfl

/-- Names other than `..` lead one level down each. -/
theorem place_of_reach
    {tree : FileTree}
    {start place : Place}
    {names : List String}
    (down : ∀ name ∈ names, name ≠ "..")
    (reached : tree.reach start names = .ok place) :
    place = start ++ names := by
  induction names generalizing start with
  | nil =>
      cases reached
      exact (List.append_nil _).symm
  | cons name names inductionHypothesis =>
      rw [List.forall_mem_cons] at down
      rw [reach] at reached
      split at reached
      · rename_i inner isStep
        rw [inductionHypothesis down.2 reached, place_of_stepTo down.1 isStep, List.append_assoc,
          List.singleton_append]
      all_goals contradiction

/-- Where names are missing or a file is in the way, no directory stands. -/
theorem get?_of_reach_error
    {tree : FileTree}
    (plain : tree.IsPlain)
    {start : Place}
    (isDirectory : tree.get? start = some .directory)
    {names : List String}
    (down : ∀ name ∈ names, name ≠ "..")
    {refusal : Refusal}
    (blocked : tree.reach start names = .error refusal)
    (short : refusal ≠ .nameTooLong) :
    tree.get? (start ++ names) ≠ some .directory := by
  induction names generalizing start with
  | nil =>
      contradiction
  | cons name names inductionHypothesis =>
      rw [List.forall_mem_cons] at down
      rw [reach] at blocked
      have nothingBelow (noDirectory : tree.get? (start ++ [name]) ≠ some .directory) :
          tree.get? (start ++ name :: names) ≠ some .directory := by
        rw [← List.singleton_append, ← List.append_assoc]
        by_cases direct : names = []
        · rw [direct, List.append_nil]
          exact noDirectory
        · rw [plain.get?_append_eq_none noDirectory direct]
          simp
      rcases stepTo_cases plain isDirectory name with
        tooLong | ⟨inner, isInner, found⟩ | ⟨bytes, -, found⟩ | ⟨-, nothing⟩
      · rw [tooLong] at blocked
        cases blocked
        contradiction
      · rw [isInner] at blocked
        rw [← List.singleton_append, ← List.append_assoc, ← place_of_stepTo down.1 isInner]
        exact inductionHypothesis found down.2 blocked
      · exact nothingBelow (by simp [found])
      · exact nothingBelow (by simp [nothing])

end ZodSchemas.FileTree
