import ZodSchemas.Proofs.Directories

namespace ZodSchemas.FileTree

/-!
# Following paths among links

A path is followed name by name, and what stands at a name decides how it goes on.
Where links may stand, a path is still sure to lead down if each of its names is that
of a directory.  Entries that a tree has lost can only end a path earlier, so a path
leads to the same in what is left of a tree, or to nothing any more.
-/

variable {tree left : FileTree}

/-! ## Steps -/

/-- A name, with the names behind it, that is looked up in the directory reached so far. -/
structure IsLookedUp (access : Access) (name : String) (rest : List String) : Prop where
  notHere : ¬ (name = "." ∨ name = "")
  notUp : ¬ name = ".."
  goesOn : ¬ (access = .creation ∧ rest = [""])
  short : ¬ nameLimit < Text.nameSize name

namespace IsLookedUp

variable {access : Access} {links : Nat} {directory : Place} {name : String} {rest : List String}

theorem follow_directory
    (isLookedUp : IsLookedUp access name rest)
    (isDirectory : tree.get? (directory ++ [name]) = some .directory) :
    tree.follow access links directory (name :: rest) =
      tree.follow access links (directory ++ [name]) rest := by
  rw [follow, if_neg isLookedUp.notHere, if_neg isLookedUp.notUp, if_neg isLookedUp.goesOn,
    if_neg isLookedUp.short]
  dsimp only
  rw [isDirectory]

/-- To find what a path leads to, a name is looked up whatever stands behind it. -/
theorem before
    (isLookedUp : IsLookedUp .target name rest)
    (others : List String) :
    IsLookedUp .target name others :=
  ⟨isLookedUp.notHere, isLookedUp.notUp, by simp, isLookedUp.short⟩

end IsLookedUp

/-! ## Trees that have lost entries -/

/-- The names of a path lead down, each of them to a directory. -/
structure LeadsStraight (tree : FileTree) (path : FilePath) : Prop where
  fits : path.fault? = none
  steps : ∀ name ∈ path.names, IsLookedUp .target name []
  directories : ∀ way, way <+: path.names →
    tree.get? (tree.startOf path ++ way) = some .directory

theorem follow_of_directories
    {start : Place}
    {names : List String}
    (steps : ∀ name ∈ names, IsLookedUp .target name [])
    (directories : ∀ way, way <+: names → tree.get? (start ++ way) = some .directory)
    (links : Nat) :
    tree.follow .target links start names = .ok ⟨start ++ names, some .directory⟩ := by
  induction names generalizing start with
  | nil =>
      have atStart := directories [] List.nil_prefix
      rw [List.append_nil] at atStart ⊢
      rw [follow, atStart]
  | cons name names inductionHypothesis =>
      rw [List.forall_mem_cons] at steps
      have first := directories [name] (List.prefix_append [name] names)
      have rest := @inductionHypothesis (start ++ [name]) steps.2 fun way onWay => by
        rw [List.append_assoc]
        exact directories _ ((List.prefix_append_right_inj [name]).mpr onWay)
      rw [(steps.1.before names).follow_directory first, rest, List.append_assoc,
        List.singleton_append]

namespace LeadsStraight

variable {path : FilePath}

theorem locate
    (straight : LeadsStraight tree path) :
    tree.locate .target path = .ok ⟨tree.startOf path ++ path.names, some .directory⟩ := by
  rw [locate_eq_follow straight.fits, follow_of_directories straight.steps straight.directories]

end LeadsStraight

end ZodSchemas.FileTree
