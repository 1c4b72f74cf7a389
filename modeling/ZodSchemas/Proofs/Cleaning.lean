import ZodSchemas.Proofs.Directories

namespace ZodSchemas

/-!
# Cleaning a directory

Cleaning a directory in a tree without links removes every entry directly in it
that may not be kept, with all that stands below, and nothing else.  Where no
directory stands it changes nothing.
-/

open FileTree

namespace FileTree

variable {tree : FileTree}

/-- A path leads to a directory if all of its names lead to one. -/
theorem locate_of_reach_all
    (plain : tree.IsPlain)
    {path : FilePath}
    (rooted : path.IsRooted)
    (fits : path.fault? = none)
    {place : Place}
    (reached : tree.reach [] path.names = .ok place)
    (access : Access) :
    tree.locate access path = .ok ⟨place, some .directory⟩ := by
  rcases List.eq_nil_or_concat path.names with isRoot | ⟨outer, name, shape⟩
  · rw [isRoot] at reached
    cases reached
    exact locate_root rooted fits isRoot access
  · rw [List.concat_eq_append] at shape
    rw [shape, reach_append] at reached
    split at reached
    · rename_i directory isOuter
      rw [locate_of_reach plain rooted fits shape isOuter]
      rw [reach] at reached
      split at reached
      · rename_i inner isStep
        cases reached
        rw [isStep]
      all_goals contradiction
    · contradiction

/-- Otherwise it leads nowhere, to nothing, or to what is no directory. -/
theorem locate_of_reach_error
    (plain : tree.IsPlain)
    {path : FilePath}
    (rooted : path.IsRooted)
    (fits : path.fault? = none)
    {refusal : Refusal}
    (blocked : tree.reach [] path.names = .error refusal)
    (access : Access) :
    tree.locate access path = .error (.refused refusal path.text) ∨
      (refusal = .missing ∧ ∃ place, tree.locate access path = .ok ⟨place, none⟩) ∨
      (refusal = .notDirectory ∧ ∃ place entry,
        tree.locate access path = .ok ⟨place, some entry⟩ ∧ entry ≠ .directory) := by
  rcases List.eq_nil_or_concat path.names with isRoot | ⟨outer, name, shape⟩
  · rw [isRoot] at blocked
    contradiction
  · rw [List.concat_eq_append] at shape
    rw [shape, reach_append] at blocked
    split at blocked
    · rename_i directory isOuter
      rw [locate_of_reach plain rooted fits shape isOuter]
      rw [reach] at blocked
      split at blocked
      · contradiction
      · rename_i place entry notDirectory isStep
        cases blocked
        rw [isStep]
        exact .inr (.inr ⟨rfl, place, entry, rfl, notDirectory⟩)
      · rename_i place isStep
        cases blocked
        rw [isStep]
        exact .inr (.inl ⟨rfl, place, rfl⟩)
      · rename_i isStep
        cases blocked
        rw [isStep]
        exact .inl rfl
    · rename_i isOuter
      cases blocked
      exact .inl (locate_of_blocked plain rooted fits shape isOuter access)

/-- Names that lead down lead to the same place where the same stands on the way. -/
theorem reach_congr
    {later : FileTree}
    {start : Place}
    {names : List String}
    (down : ∀ name ∈ names, name ≠ "..")
    (same : ∀ way, way <+: names → later.get? (start ++ way) = tree.get? (start ++ way)) :
    later.reach start names = tree.reach start names := by
  induction names generalizing start with
  | nil =>
      rfl
  | cons name names inductionHypothesis =>
      rw [List.forall_mem_cons] at down
      have first : later.stepTo start name = tree.stepTo start name := by
        rw [stepTo, stepTo, if_neg down.1, if_neg down.1,
          same [name] (List.prefix_append [name] names)]
      have rest : later.reach (start ++ [name]) names = tree.reach (start ++ [name]) names := by
        refine inductionHypothesis down.2 fun way onWay => ?_
        rw [List.append_assoc]
        exact same _ ((List.prefix_append_right_inj [name]).mpr onWay)
      rw [reach, reach, first]
      cases isStep : tree.stepTo start name with
      | error refusal =>
          rfl
      | ok located =>
          obtain ⟨place, entry⟩ := located
          rw [place_of_stepTo down.1 isStep]
          rcases entry with _ | _ | _ | _
          · rfl
          · exact rest
          all_goals rfl

theorem get?_removeBelow
    {place other : Place}
    (notRoot : other ≠ [])
    (tree : FileTree) :
    (tree.removeBelow place).get? other =
      if other = place ∨ ¬ place <+: other then tree.get? other else none := by
  rw [get?_of_ne_root notRoot, get?_of_ne_root notRoot]
  change (tree.entries.filter fun entry =>
    entry.1 == place || !place.isPrefixOf entry.1).lookup other = _
  rw [lookup_filter fun here => here == place || !place.isPrefixOf here]
  simp only [Bool.or_eq_true, beq_iff_eq, Bool.not_eq_true', Bool.eq_false_iff, ne_eq,
    List.isPrefixOf_iff_prefix]

theorem get?_removeBelow_of_apart
    {place other : Place}
    (apart : ¬ place <+: other)
    (tree : FileTree) :
    (tree.removeBelow place).get? other = tree.get? other := by
  by_cases isRoot : other = []
  · rw [isRoot, get?_root, get?_root]
  · rw [get?_removeBelow isRoot, if_pos (.inr apart)]

/-- What does not lie deeper than a directory lies below none of its entries. -/
theorem not_entry_prefix_of_length_le
    {directory place : Place}
    (isOuter : place.length ≤ directory.length)
    (name : String) :
    ¬ directory ++ [name] <+: place := by
  intro below
  have long := below.length_le
  rw [List.length_append] at long
  exact Nat.not_succ_le_self _ (Nat.le_trans long isOuter)

/-- An entry that is removed after all below it leaves what remains when all is removed at once. -/
theorem remove_removeBelow
    (tree : FileTree)
    (place : Place) :
    (tree.removeBelow place).remove place = tree.remove place := by
  rw [remove, removeBelow, List.filter_filter, remove]
  congr 2
  funext entry
  cases place.isPrefixOf entry.1 <;> simp

theorem IsPlain.removeBelow
    (plain : tree.IsPlain)
    (place : Place) :
    (tree.removeBelow place).IsPlain := by
  constructor
  · intro other target found
    by_cases isRoot : other = []
    · rw [isRoot, get?_root] at found
      cases found
    · rw [get?_removeBelow isRoot] at found
      split at found
      · exact plain.noLink other target found
      · contradiction
  · intro other name entry found
    rw [get?_removeBelow (by simp)] at found
    split at found
    · rename_i kept
      have apart : ¬ place <+: other := by
        rcases kept with rfl | apart
        · exact not_entry_prefix_of_length_le (Nat.le_refl _) name
        · exact fun below => apart (below.trans (List.prefix_append other [name]))
      rw [get?_removeBelow_of_apart apart]
      exact plain.inDirectory other name entry found
    · contradiction

/-- Nothing that stands on the way to a directory is removed with its entries. -/
theorem reach_of_removed
    {later : FileTree}
    {directory : Place}
    {names : List String}
    (down : ∀ name ∈ names, name ≠ "..")
    (reached : tree.reach [] names = .ok directory)
    (kept : ∀ place, place.length ≤ directory.length → later.get? place = tree.get? place) :
    later.reach [] names = .ok directory := by
  rw [← reached]
  refine reach_congr down fun way onWay => kept way ?_
  rw [place_of_reach down reached]
  exact onWay.length_le

/-- The places that cleaning a directory empties: its entries that may not be kept, and all that
stands below them. -/
def IsCleared (directory place : Place) : Prop :=
  ∃ name rest, place = directory ++ name :: rest ∧ name ∉ Change.preservedNames

/-- Remove some entries of a directory. -/
def removeEach (tree : FileTree) (directory : Place) (names : List String) : FileTree :=
  names.foldl (fun left name => left.remove (directory ++ [name])) tree

theorem removeEach_cons
    (directory : Place)
    (name : String)
    (names : List String) :
    tree.removeEach directory (name :: names) =
      (tree.remove (directory ++ [name])).removeEach directory names :=
  rfl

theorem IsPlain.removeEach
    (plain : tree.IsPlain)
    (directory : Place)
    (names : List String) :
    (tree.removeEach directory names).IsPlain := by
  induction names generalizing tree with
  | nil =>
      exact plain
  | cons name names inductionHypothesis =>
      exact inductionHypothesis (plain.remove _)

theorem get?_removeEach
    {place : Place}
    (notRoot : place ≠ [])
    (directory : Place)
    (names : List String) :
    (tree.removeEach directory names).get? place =
      if ∃ name ∈ names, directory ++ [name] <+: place then none else tree.get? place := by
  induction names generalizing tree with
  | nil =>
      simp [removeEach]
  | cons name names inductionHypothesis =>
      rw [removeEach_cons, inductionHypothesis, get?_remove notRoot]
      by_cases first : directory ++ [name] <+: place
      · simp [first]
      · simp [first]

/-- The entries of a directory have the names of what stands directly in it. -/
theorem mem_names
    {directory : Place}
    {name : String}
    {entry : FileEntry}
    (found : tree.get? (directory ++ [name]) = some entry) :
    name ∈ tree.names directory := by
  have member := mem_entries (by simp) found
  refine List.mem_filterMap.mpr ⟨_, List.mem_filter.mpr ⟨member, ?_⟩, List.getLast?_concat⟩
  simp

/-- The names of the entries of a directory that may not be kept. -/
def clearable (tree : FileTree) (directory : Place) : List String :=
  (tree.names directory).filter fun name => !Change.preservedNames.contains name

/-- What remains when a directory is cleaned. -/
def cleaned (tree : FileTree) (directory : Place) : FileTree :=
  tree.removeEach directory (tree.clearable directory)

/-- Cleaning a directory keeps what stands elsewhere. -/
theorem get?_cleaned_of_kept
    {directory place : Place}
    (kept : ¬ IsCleared directory place) :
    (tree.cleaned directory).get? place = tree.get? place := by
  by_cases isRoot : place = []
  · rw [isRoot, get?_root, get?_root]
  · rw [cleaned, get?_removeEach isRoot, if_neg]
    rintro ⟨name, member, rest, shape⟩
    refine kept ⟨name, rest, ?_, by simpa using (List.mem_filter.mp member).2⟩
    rw [← shape, List.append_assoc, List.singleton_append]

/-- Nothing stands where a directory has been cleaned. -/
theorem IsConnected.get?_cleaned
    (connected : tree.IsConnected)
    {directory place : Place}
    (isCleared : IsCleared directory place) :
    (tree.cleaned directory).get? place = none := by
  obtain ⟨name, rest, rfl, removable⟩ := isCleared
  rw [cleaned, get?_removeEach (by simp)]
  split
  · rfl
  · rename_i noneRemoved
    have nothing : tree.get? (directory ++ [name]) = none := by
      by_contra found
      obtain ⟨entry, isEntry⟩ := Option.ne_none_iff_exists'.mp found
      refine noneRemoved ⟨name, List.mem_filter.mpr ⟨mem_names isEntry, ?_⟩, rest, ?_⟩
      · simpa using removable
      · rw [List.append_assoc, List.singleton_append]
    by_cases direct : rest = []
    · rw [direct, nothing]
    · rw [← List.singleton_append, ← List.append_assoc]
      exact connected.get?_append_eq_none (by simp [nothing]) direct

end FileTree

namespace Change

variable {tree : FileTree}

theorem leadsToDirectory_of_reach
    (plain : tree.IsPlain)
    {path : FilePath}
    (rooted : path.IsRooted)
    (fits : path.fault? = none)
    {directory : Place}
    (reached : tree.reach [] path.names = .ok directory) :
    leadsToDirectory tree path = true := by
  rw [leadsToDirectory, isDirectory, entryAt,
    locate_of_reach_all plain rooted fits reached .target]
  rfl

theorem inTree_removeEntry
    (path : FilePath)
    (place : Place)
    (name : String) :
    (removeEntry path place name).inTree tree =
      match hindrance? tree (place ++ [name]) ⟨path.slashes, path.names ++ [name]⟩ with
      | some reason => (.ok [remainder ⟨path.slashes, path.names ++ [name]⟩ reason], tree)
      | none =>
          if leadsToDirectory tree path = false then
            (.ok [outOfReach ⟨path.slashes, path.names ++ [name]⟩], tree)
          else if leadsToDirectory (tree.removeBelow (place ++ [name])) path = false then
            (.ok [outOfReach ⟨path.slashes, path.names ++ [name]⟩],
              tree.removeBelow (place ++ [name]))
          else
            (.ok [], tree.remove (place ++ [name])) := by
  unfold removeEntry
  rw [inTree_bind, inTree_get]
  dsimp only
  cases hindrance? tree (place ++ [name]) ⟨path.slashes, path.names ++ [name]⟩ with
  | some reason =>
      rfl
  | none =>
      dsimp only
      rw [inTree_bind, inTree_get]
      dsimp only
      cases leadsToDirectory tree path with
      | false =>
          rfl
      | true =>
          change (if !leadsToDirectory (tree.removeBelow (place ++ [name])) path then _ else _ :
            Change (List String)).inTree (tree.removeBelow (place ++ [name])) = _
          rw [← remove_removeBelow]
          cases leadsToDirectory (tree.removeBelow (place ++ [name])) path <;> rfl

/-- In a tree without links each entry of a directory is removed. -/
theorem inTree_removeEntry_of_reach
    (plain : tree.IsPlain)
    {path : FilePath}
    (rooted : path.IsRooted)
    (fits : path.fault? = none)
    (down : ∀ name ∈ path.names, name ≠ "..")
    {directory : Place}
    (reached : tree.reach [] path.names = .ok directory)
    (name : String) :
    (removeEntry path directory name).inTree tree =
      (.ok [], tree.remove (directory ++ [name])) := by
  have free (inner : FilePath) : hindrance? tree (directory ++ [name]) inner = none := by
    unfold hindrance?
    split
    · rename_i isLink
      exact absurd isLink (plain.noLink _ _)
    · rfl
  have reachedToo : (tree.removeBelow (directory ++ [name])).reach [] path.names =
      .ok directory := by
    refine reach_of_removed down reached fun place isOuter => ?_
    exact get?_removeBelow_of_apart (not_entry_prefix_of_length_le isOuter name) tree
  rw [inTree_removeEntry, free, leadsToDirectory_of_reach plain rooted fits reached,
    leadsToDirectory_of_reach (plain.removeBelow _) rooted fits reachedToo]
  rfl

theorem inTree_mapM_removeEntry
    (plain : tree.IsPlain)
    {path : FilePath}
    (rooted : path.IsRooted)
    (fits : path.fault? = none)
    (down : ∀ name ∈ path.names, name ≠ "..")
    {directory : Place}
    (reached : tree.reach [] path.names = .ok directory)
    (names : List String) :
    (names.mapM (removeEntry path directory)).inTree tree =
      (.ok (names.map fun _ => []), tree.removeEach directory names) := by
  induction names generalizing tree with
  | nil =>
      rfl
  | cons name names inductionHypothesis =>
      have reachedToo : (tree.remove (directory ++ [name])).reach [] path.names =
          .ok directory := by
        refine reach_of_removed down reached fun place isOuter => ?_
        exact get?_remove_of_apart (not_entry_prefix_of_length_le isOuter name) tree
      rw [List.mapM_cons, inTree_bind,
        inTree_removeEntry_of_reach plain rooted fits down reached]
      dsimp only
      rw [inTree_bind, inductionHypothesis (plain.remove _) reachedToo]
      rfl

theorem inTree_cleanDirectory
    (path : FilePath) :
    (cleanDirectory path).inTree tree =
      match tree.isPresent path with
      | .error fault => (.error fault, tree)
      | .ok false => (.ok [], tree)
      | .ok true =>
          match directoryPlace path tree with
          | .error fault => (.error fault, tree)
          | .ok place =>
              (do
                let reports ← (tree.clearable place).mapM (removeEntry path place)
                pure reports.flatten : Change (List String)).inTree tree := by
  rw [cleanDirectory, inTree_bind, inTree_ask]
  rcases tree.isPresent path with fault | _ | _
  · rfl
  · rfl
  · change (ask (directoryPlace path) >>= _ : Change (List String)).inTree tree = _
    rw [inTree_bind, inTree_ask]
    cases directoryPlace path tree <;> rfl

/-- Where a path leads to a directory, its entries that may not be kept are removed in turn. -/
theorem inTree_cleanDirectory_of_located
    {path : FilePath}
    {directory : Place}
    (located : tree.locate .target path = .ok ⟨directory, some .directory⟩)
    {reports : List (List String)}
    {left : FileTree}
    (removes : ((tree.clearable directory).mapM (removeEntry path directory)).inTree tree =
      (.ok reports, left)) :
    (cleanDirectory path).inTree tree = (.ok reports.flatten, left) := by
  have isPresent : tree.isPresent path = .ok true := by
    rw [isPresent, entryAt, located]
    rfl
  have isPlace : directoryPlace path tree = .ok directory := by
    unfold directoryPlace
    rw [located]
    rfl
  rw [inTree_cleanDirectory, isPresent]
  dsimp only
  rw [isPlace]
  dsimp only
  rw [inTree_bind, removes]
  rfl

/-- In a tree without links the directory that a path leads to is cleaned, and nothing remains to be
reported. -/
theorem inTree_cleanDirectory_of_reach
    (plain : tree.IsPlain)
    {path : FilePath}
    (rooted : path.IsRooted)
    (fits : path.fault? = none)
    (down : ∀ name ∈ path.names, name ≠ "..")
    {directory : Place}
    (reached : tree.reach [] path.names = .ok directory) :
    (cleanDirectory path).inTree tree = (.ok [], tree.cleaned directory) := by
  have located := locate_of_reach_all plain rooted fits reached .target
  rw [inTree_cleanDirectory_of_located located
    (inTree_mapM_removeEntry plain rooted fits down reached _)]
  simp [cleaned]

/-- Where a path leads nowhere, there is nothing to clean, unless a name or the path is too long. -/
theorem inTree_cleanDirectory_of_error
    {path : FilePath}
    {fault : FileFault}
    (isRefused : tree.locate .target path = .error fault) :
    ∃ result, (cleanDirectory path).inTree tree = (result, tree) ∧
      (result = .ok [] ∧ (∀ text, fault ≠ .refused .nameTooLong text) ∨
        ∃ text, result = .error (.refused .nameTooLong text) ∧
          fault = .refused .nameTooLong text) := by
  rw [inTree_cleanDirectory]
  have answer : tree.isPresent path = .ok false ∧ (∀ text, fault ≠ .refused .nameTooLong text) ∨
      ∃ text, tree.isPresent path = .error (.refused .nameTooLong text) ∧
        fault = .refused .nameTooLong text := by
    rw [isPresent, entryAt, isRefused]
    rcases fault with ⟨refusal, text⟩ | _ | _ | _
    · cases refusal with
      | nameTooLong =>
          exact .inr ⟨text, rfl, rfl⟩
      | _ =>
          exact .inl ⟨rfl, by simp⟩
    all_goals exact .inl ⟨rfl, by simp⟩
  rcases answer with ⟨absent, short⟩ | ⟨text, isError, isLong⟩
  · rw [absent]
    exact ⟨_, rfl, .inl ⟨rfl, short⟩⟩
  · rw [isError]
    exact ⟨_, rfl, .inr ⟨text, rfl, isLong⟩⟩

/-- Where a path leads to no directory, cleaning changes nothing: there is nothing to clean, or it
is refused. -/
theorem inTree_cleanDirectory_of_reach_error
    (plain : tree.IsPlain)
    {path : FilePath}
    (rooted : path.IsRooted)
    (fits : path.fault? = none)
    {refusal : Refusal}
    (blocked : tree.reach [] path.names = .error refusal) :
    ∃ result, (cleanDirectory path).inTree tree = (result, tree) ∧
      (result = .ok [] ∧ refusal ≠ .nameTooLong ∨
        (∃ other text, result = .error (.refused other text)) ∧ refusal ≠ .missing) := by
  rcases locate_of_reach_error plain rooted fits blocked .target with
    isRefused | ⟨rfl, place, isLocated⟩ | ⟨rfl, place, entry, isLocated, notDirectory⟩
  · obtain ⟨result, unchanged, ⟨isOk, short⟩ | ⟨text, isError, isLong⟩⟩ :=
      inTree_cleanDirectory_of_error isRefused
    · refine ⟨result, unchanged, .inl ⟨isOk, ?_⟩⟩
      rintro rfl
      exact short path.text rfl
    · refine ⟨result, unchanged, .inr ⟨⟨.nameTooLong, text, isError⟩, ?_⟩⟩
      rintro rfl
      cases isLong
  · have absent : tree.isPresent path = .ok false := by
      rw [isPresent, entryAt, isLocated]
      rfl
    rw [inTree_cleanDirectory, absent]
    exact ⟨_, rfl, .inl ⟨rfl, by decide⟩⟩
  · have present : tree.isPresent path = .ok true := by
      rw [isPresent, entryAt, isLocated]
      rfl
    have noPlace : directoryPlace path tree = .error (.refused .notDirectory path.text) := by
      unfold directoryPlace
      rw [isLocated]
      cases entry with
      | directory =>
          contradiction
      | file bytes =>
          rfl
      | link target =>
          rfl
    rw [inTree_cleanDirectory, present]
    dsimp only
    rw [noPlace]
    exact ⟨_, rfl, .inr ⟨⟨_, _, rfl⟩, by decide⟩⟩

end Change

end ZodSchemas
