import ZodSchemas.Proofs.Changes
import ZodSchemas.Proofs.CodePoints
import ZodSchemas.Proofs.PlainTrees

namespace ZodSchemas

/-!
# Making directories

A directory is made by trying the whole path first and going back for what is
missing on the way.  In a tree without links this is the same as going from the
root on and making each directory that is not there yet, until a file or a name
that is too long is met.
-/

open FileTree

/-- A path from the root, whose names are texts. -/
structure FilePath.IsRooted (path : FilePath) : Prop where
  slashes : path.slashes ≠ 0
  steps : AreSteps path.names
  texts : ∀ name ∈ path.names, Text.IsText name

namespace FilePath.IsRooted

variable {path : FilePath}

theorem parent
    (rooted : path.IsRooted) :
    path.parent.IsRooted where
  slashes := rooted.slashes
  steps name member := rooted.steps name (List.dropLast_subset _ member)
  texts name member := rooted.texts name (List.dropLast_subset _ member)

theorem startOf
    (rooted : path.IsRooted)
    (tree : FileTree) :
    tree.startOf path = [] :=
  if_pos (bne_iff_ne.mpr rooted.slashes)

end FilePath.IsRooted

namespace FileTree

/-- Make the directories that names lead to, and answer the last one; none where a file or a name
that is too long is in the way. -/
def makeAlong (tree : FileTree) (directory : Place) : List String → FileTree × Option Place
  | [] => (tree, some directory)
  | name :: rest =>
      match tree.stepTo directory name with
      | .ok ⟨place, some .directory⟩ => tree.makeAlong place rest
      | .ok ⟨_, some _⟩ => (tree, none)
      | .ok ⟨place, none⟩ => (tree.put place .directory).makeAlong place rest
      | .error _ => (tree, none)

variable {tree : FileTree}

theorem locate_of_fault
    {path : FilePath}
    {fault : FileFault}
    (found : path.fault? = some fault)
    (access : Access) :
    tree.locate access path = .error fault := by
  unfold FilePath.fault? at found
  unfold locate
  split at found
  · rename_i first
    rw [if_pos first, Option.some.inj found]
  · rename_i first
    rw [if_neg first]
    split at found
    · rename_i second
      rw [if_pos second, Option.some.inj found]
    · rename_i second
      rw [if_neg second]
      split at found
      · rename_i third
        rw [if_pos third, Option.some.inj found]
      · contradiction

theorem locate_eq_follow
    {path : FilePath}
    (fits : path.fault? = none)
    (access : Access) :
    tree.locate access path =
      match tree.follow access linkLimit (tree.startOf path) path.names with
      | .ok located => .ok located
      | .error refusal => .error (.refused refusal path.text) := by
  obtain ⟨nameable, noNull, short⟩ := FilePath.fault?_eq_none_iff.mp fits
  have hasNoNull : ¬ path.text.toList.contains '\x00' = true := by
    simpa using noNull
  exact (if_neg (by simp [nameable])).trans
    ((if_neg hasNoNull).trans (if_neg (Nat.not_lt.mpr short)))

theorem locate_of_fits
    {path : FilePath}
    (rooted : path.IsRooted)
    (fits : path.fault? = none)
    (access : Access) :
    tree.locate access path =
      match tree.follow access linkLimit [] path.names with
      | .ok located => .ok located
      | .error refusal => .error (.refused refusal path.text) := by
  rw [locate_eq_follow fits, rooted.startOf tree]

/-- Where the names in front lead to a directory, the last name decides. -/
theorem locate_of_reach
    (plain : tree.IsPlain)
    {path : FilePath}
    (rooted : path.IsRooted)
    (fits : path.fault? = none)
    {outer : List String}
    {name : String}
    (shape : path.names = outer ++ [name])
    {directory : Place}
    (reached : tree.reach [] outer = .ok directory)
    (access : Access) :
    tree.locate access path =
      match tree.stepTo directory name with
      | .ok located => .ok located
      | .error refusal => .error (.refused refusal path.text) := by
  have areSteps : AreSteps (outer ++ [name]) := shape ▸ rooted.steps
  rw [locate_of_fits rooted fits, shape,
    follow_append plain access linkLimit tree.get?_root areSteps (List.cons_ne_nil name []),
    reached]
  dsimp only
  rw [follow_singleton plain access linkLimit directory fun other member =>
    areSteps other (List.mem_append_right _ member)]

/-- Where the names in front lead to no directory, the path leads nowhere. -/
theorem locate_of_blocked
    (plain : tree.IsPlain)
    {path : FilePath}
    (rooted : path.IsRooted)
    (fits : path.fault? = none)
    {outer : List String}
    {name : String}
    (shape : path.names = outer ++ [name])
    {refusal : Refusal}
    (blocked : tree.reach [] outer = .error refusal)
    (access : Access) :
    tree.locate access path = .error (.refused refusal path.text) := by
  rw [locate_of_fits rooted fits, shape,
    follow_append plain access linkLimit tree.get?_root (shape ▸ rooted.steps)
      (List.cons_ne_nil name []), blocked]

theorem locate_root
    {path : FilePath}
    (rooted : path.IsRooted)
    (fits : path.fault? = none)
    (isRoot : path.names = [])
    (access : Access) :
    tree.locate access path = .ok ⟨[], some .directory⟩ := by
  rw [locate_of_fits rooted fits, isRoot, follow, get?_root]

/-! ## Directories along a path -/

theorem makeAlong_of_reach
    (plain : tree.IsPlain)
    {directory place : Place}
    (isDirectory : tree.get? directory = some .directory)
    {names : List String}
    (reached : tree.reach directory names = .ok place) :
    tree.makeAlong directory names = (tree, some place) := by
  induction names generalizing directory with
  | nil =>
      cases reached
      rfl
  | cons name names inductionHypothesis =>
      rw [reach] at reached
      rw [makeAlong]
      rcases stepTo_cases plain isDirectory name with
        tooLong | ⟨inner, isInner, found⟩ | ⟨bytes, isFile, -⟩ | ⟨isMissing, -⟩
      · rw [tooLong] at reached
        contradiction
      · rw [isInner] at reached ⊢
        exact inductionHypothesis found reached
      · rw [isFile] at reached
        contradiction
      · rw [isMissing] at reached
        contradiction

/-- What is in the way of a path is in the way of making its directories. -/
theorem makeAlong_of_blocked
    (plain : tree.IsPlain)
    {directory : Place}
    (isDirectory : tree.get? directory = some .directory)
    {names : List String}
    {refusal : Refusal}
    (blocked : tree.reach directory names = .error refusal)
    (present : refusal ≠ .missing) :
    tree.makeAlong directory names = (tree, none) := by
  induction names generalizing directory with
  | nil =>
      contradiction
  | cons name names inductionHypothesis =>
      rw [reach] at blocked
      rw [makeAlong]
      rcases stepTo_cases plain isDirectory name with
        tooLong | ⟨inner, isInner, found⟩ | ⟨bytes, isFile, -⟩ | ⟨isMissing, -⟩
      · rw [tooLong]
      · rw [isInner] at blocked ⊢
        exact inductionHypothesis found blocked
      · rw [isFile]
      · rw [isMissing] at blocked
        cases blocked
        contradiction

/-- Directories that are made on the way keep the tree plain, and keep what was there. -/
theorem makeAlong_spec
    (plain : tree.IsPlain)
    {directory : Place}
    (isDirectory : tree.get? directory = some .directory)
    (names : List String) :
    (tree.makeAlong directory names).1.IsPlain ∧
      tree.GrowsTo (tree.makeAlong directory names).1 ∧
      ∀ place, (tree.makeAlong directory names).2 = some place →
        (tree.makeAlong directory names).1.reach directory names = .ok place := by
  induction names generalizing tree directory with
  | nil =>
      refine ⟨plain, .refl tree, fun place isLast => ?_⟩
      cases isLast
      rfl
  | cons name names inductionHypothesis =>
      rw [makeAlong]
      rcases stepTo_cases plain isDirectory name with
        tooLong | ⟨inner, isInner, found⟩ | ⟨bytes, isFile, -⟩ | ⟨isMissing, nothing⟩
      · rw [tooLong]
        exact ⟨plain, .refl tree, by simp⟩
      · rw [isInner]
        obtain ⟨stillPlain, grows, reached⟩ := inductionHypothesis plain found
        refine ⟨stillPlain, grows, fun place isLast => ?_⟩
        rw [reach, stepTo_of_stepTo isInner, grows.get?_directory found]
        exact reached place isLast
      · rw [isFile]
        exact ⟨plain, .refl tree, by simp⟩
      · rw [isMissing]
        have notRoot : directory ++ [name] ≠ [] := by
          simp
        have isMade := tree.get?_put_concat directory name .directory
        have first : tree.GrowsTo (tree.put (directory ++ [name]) .directory) :=
          growsTo_put notRoot fun kind isKind => by
            rw [directory?_eq_none_iff.mpr nothing] at isKind
            contradiction
        obtain ⟨stillPlain, grows, reached⟩ :=
          inductionHypothesis (plain.put_directory isDirectory name) isMade
        refine ⟨stillPlain, first.trans grows, fun place isLast => ?_⟩
        rw [reach, stepTo_of_stepTo isMissing, grows.get?_directory isMade]
        exact reached place isLast

/-- Making directories goes on where it has led to. -/
theorem makeAlong_append
    (directory : Place)
    (names rest : List String) :
    tree.makeAlong directory (names ++ rest) =
      match tree.makeAlong directory names with
      | (later, some place) => later.makeAlong place rest
      | (later, none) => (later, none) := by
  induction names generalizing tree directory with
  | nil =>
      rfl
  | cons name names inductionHypothesis =>
      rw [List.cons_append, makeAlong, makeAlong]
      split
      · exact inductionHypothesis _
      · rfl
      · exact inductionHypothesis _
      · rfl

end FileTree

namespace Change

variable {tree : FileTree}

/-- How making the directories of a path ends: it is refused where one cannot be made. -/
inductive EndsMaking : Option Place → Except FileFault Unit → Prop where
  | made (place : Place) : EndsMaking (some place) (.ok ())
  | refused (refusal : Refusal) (text : String) : EndsMaking none (.error (.refused refusal text))

theorem inTree_makeDirectory
    (path : FilePath) :
    (makeDirectory path).inTree tree =
      match tree.locate .entry path with
      | .ok ⟨place, none⟩ => (.ok (), tree.put place .directory)
      | .ok ⟨_, some _⟩ => (.error (.refused .occupied path.text), tree)
      | .error fault => (.error fault, tree) := by
  rw [makeDirectory, inTree_bind, inTree_ask]
  rcases tree.locate .entry path with fault | ⟨place, _ | entry⟩ <;> rfl

theorem inTree_acceptDirectory
    (path : FilePath)
    (refusal : Refusal)
    (text : String) :
    (acceptDirectory path (.refused refusal text)).inTree tree =
      match tree.isDirectory path with
      | .ok true => (.ok (), tree)
      | .ok false => (.error (.refused refusal text), tree)
      | .error fault => (.error fault, tree) := by
  unfold acceptDirectory
  simp only [FileFault.isRefused, if_true, inTree_bind, inTree_ask]
  rcases tree.isDirectory path with fault | _ | _ <;> rfl

/-- Where a path leads, a directory there is accepted and nothing else is. -/
theorem inTree_acceptDirectory_of_located
    {path : FilePath}
    {located : Located}
    (isLocated : tree.locate .target path = .ok located)
    (refusal : Refusal)
    (text : String) :
    (acceptDirectory path (.refused refusal text)).inTree tree =
      (if located.entry = some .directory then .ok () else .error (.refused refusal text),
        tree) := by
  have answer : tree.isDirectory path = .ok (located.entry == some .directory) := by
    rw [isDirectory, entryAt, isLocated]
    rfl
  rw [inTree_acceptDirectory, answer]
  by_cases accepted : located.entry = some .directory
  · rw [if_pos accepted, beq_iff_eq.mpr accepted]
  · rw [if_neg accepted, beq_false_of_ne accepted]

/-- Where a path leads nowhere, nothing is accepted. -/
theorem inTree_acceptDirectory_of_refused
    {path : FilePath}
    {refusal : Refusal}
    {text : String}
    (isRefused : tree.locate .target path = .error (.refused refusal text))
    (first : Refusal)
    (firstText : String) :
    ∃ last lastText,
      (acceptDirectory path (.refused first firstText)).inTree tree =
        (.error (.refused last lastText), tree) := by
  rw [inTree_acceptDirectory, isDirectory, entryAt, isRefused]
  cases refusal with
  | nameTooLong =>
      exact ⟨_, _, rfl⟩
  | _ =>
      exact ⟨_, _, rfl⟩

theorem isMissing_refused_iff
    {refusal : Refusal}
    {text : String} :
    isMissing (.refused refusal text) = true ↔ refusal = .missing := by
  cases refusal <;> simp [isMissing]

/-- What is done about a fault once the outer directories have been made. -/
def settle (path : FilePath) (fault : FileFault) : Change Unit :=
  if isMissing fault then throw fault else acceptDirectory path fault

theorem makeDirectoriesTo_nil
    (slashes : Nat) :
    makeDirectoriesTo slashes [] =
      attempt (makeDirectory ⟨slashes, []⟩) >>= fun result =>
        match result with
        | .ok _ => pure ()
        | .error fault => settle ⟨slashes, []⟩ fault := by
  delta makeDirectoriesTo makeDirectoriesTo._f settle
  dsimp only
  congr 1
  funext result
  cases result with
  | ok value =>
      rfl
  | error fault =>
      dsimp only
      cases isMissing fault <;> rfl

theorem makeDirectoriesTo_cons
    (slashes : Nat)
    (name : String)
    (outer : List String) :
    makeDirectoriesTo slashes (name :: outer) =
      attempt (makeDirectory ⟨slashes, (name :: outer).reverse⟩) >>= fun result =>
        match result with
        | .ok _ => pure ()
        | .error fault =>
            if isMissing fault then
              makeDirectoriesTo slashes outer >>= fun _ =>
                attempt (makeDirectory ⟨slashes, (name :: outer).reverse⟩) >>= fun result =>
                  match result with
                  | .ok _ => pure ()
                  | .error fault => settle ⟨slashes, (name :: outer).reverse⟩ fault
            else acceptDirectory ⟨slashes, (name :: outer).reverse⟩ fault := by
  delta makeDirectoriesTo makeDirectoriesTo._f settle
  dsimp only
  congr 1
  funext result
  cases result with
  | ok value =>
      rfl
  | error fault =>
      dsimp only
      cases isMissing fault <;> rfl

/-- Making the last directory of a path, where the others are there, whatever is done about a
missing one. -/
theorem inTree_makeLast
    (plain : tree.IsPlain)
    {path : FilePath}
    (rooted : path.IsRooted)
    (fits : path.fault? = none)
    {outer : List String}
    {name : String}
    (shape : path.names = outer ++ [name])
    {directory : Place}
    (reached : tree.reach [] outer = .ok directory)
    (onFault : FileFault → Change Unit)
    (accepts : ∀ refusal, refusal ≠ .missing →
      onFault (.refused refusal path.text) = acceptDirectory path (.refused refusal path.text)) :
    ∃ result,
      (attempt (makeDirectory path) >>= fun result =>
        match result with
        | .ok _ => pure ()
        | .error fault => onFault fault : Change Unit).inTree tree =
          (result, (tree.makeAlong directory [name]).1) ∧
        EndsMaking (tree.makeAlong directory [name]).2 result := by
  have isDirectory := get?_of_reach plain tree.get?_root reached
  have located (access : Access) := locate_of_reach plain rooted fits shape reached access
  simp only [inTree_bind, inTree_attempt, inTree_makeDirectory, located, makeAlong]
  rcases stepTo_cases plain isDirectory name with
    tooLong | ⟨inner, isInner, -⟩ | ⟨bytes, isFile, -⟩ | ⟨isMissing, -⟩
  · have noTarget : tree.locate .target path = .error (.refused .nameTooLong path.text) := by
      rw [located, tooLong]
    obtain ⟨last, lastText, ends⟩ :=
      inTree_acceptDirectory_of_refused noTarget .nameTooLong path.text
    rw [tooLong]
    dsimp only
    rw [accepts .nameTooLong (by decide), ends]
    exact ⟨_, rfl, .refused last lastText⟩
  · have target : tree.locate .target path = .ok ⟨inner, some .directory⟩ := by
      rw [located, isInner]
    rw [isInner]
    dsimp only
    rw [accepts .occupied (by decide), inTree_acceptDirectory_of_located target, if_pos rfl]
    exact ⟨_, rfl, .made inner⟩
  · have target :
        tree.locate .target path = .ok ⟨directory ++ [name], some (.file bytes)⟩ := by
      rw [located, isFile]
    rw [isFile]
    dsimp only
    rw [accepts .occupied (by decide), inTree_acceptDirectory_of_located target,
      if_neg (by simp)]
    exact ⟨_, rfl, .refused .occupied path.text⟩
  · rw [isMissing]
    exact ⟨_, rfl, .made _⟩

/-- The root is accepted as it stands. -/
theorem inTree_makeRoot
    {slashes : Nat}
    (rooted : FilePath.IsRooted ⟨slashes, []⟩)
    (fits : FilePath.fault? ⟨slashes, []⟩ = none) :
    (makeDirectoriesTo slashes []).inTree tree = (.ok (), tree) := by
  have located (access : Access) :
      tree.locate access ⟨slashes, []⟩ = .ok ⟨[], some .directory⟩ :=
    locate_root rooted fits rfl access
  have occupied :
      (makeDirectory ⟨slashes, []⟩).inTree tree =
        (.error (.refused .occupied (FilePath.text ⟨slashes, []⟩)), tree) := by
    rw [inTree_makeDirectory, located]
  rw [makeDirectoriesTo_nil, inTree_bind, inTree_attempt, occupied]
  change (acceptDirectory _ (.refused .occupied _)).inTree tree = _
  rw [inTree_acceptDirectory_of_located (located .target), if_pos rfl]

section Last

variable {slashes : Nat} {name : String} {outer : List String}

/-- The last directory of a path is refused as the others are. -/
theorem inTree_makeDirectory_of_blocked
    (plain : tree.IsPlain)
    (rooted : FilePath.IsRooted ⟨slashes, outer.reverse ++ [name]⟩)
    (fits : FilePath.fault? ⟨slashes, outer.reverse ++ [name]⟩ = none)
    {refusal : Refusal}
    (blocked : tree.reach [] outer.reverse = .error refusal) :
    (makeDirectory ⟨slashes, outer.reverse ++ [name]⟩).inTree tree =
      (.error (.refused refusal (FilePath.text ⟨slashes, outer.reverse ++ [name]⟩)), tree) := by
  rw [inTree_makeDirectory, locate_of_blocked plain rooted fits rfl blocked .entry]

/-- Missing outer directories are made first, and then the last one as if they had stood. -/
theorem inTree_makeDirectoriesTo_of_missing
    (plain : tree.IsPlain)
    (rooted : FilePath.IsRooted ⟨slashes, outer.reverse ++ [name]⟩)
    (fits : FilePath.fault? ⟨slashes, outer.reverse ++ [name]⟩ = none)
    (missing : tree.reach [] outer.reverse = .error .missing)
    {outerResult : Except FileFault Unit}
    (outerMade :
      (makeDirectoriesTo slashes outer).inTree tree =
        (outerResult, (tree.makeAlong [] outer.reverse).1))
    (outerEnds : EndsMaking (tree.makeAlong [] outer.reverse).2 outerResult) :
    ∃ result,
      (makeDirectoriesTo slashes (name :: outer)).inTree tree =
          (result, (tree.makeAlong [] (outer.reverse ++ [name])).1) ∧
        EndsMaking (tree.makeAlong [] (outer.reverse ++ [name])).2 result := by
  rw [makeDirectoriesTo_cons, List.reverse_cons, makeAlong_append, inTree_bind, inTree_attempt,
    inTree_makeDirectory_of_blocked plain rooted fits missing]
  dsimp only
  rw [if_pos (isMissing_refused_iff.mpr rfl), inTree_bind, outerMade]
  obtain ⟨stillPlain, -, reaches⟩ := makeAlong_spec plain tree.get?_root outer.reverse
  rcases along : tree.makeAlong [] outer.reverse with ⟨later, last⟩
  rw [along] at outerEnds stillPlain reaches
  cases outerEnds with
  | made place =>
      exact inTree_makeLast stillPlain rooted fits rfl (reaches place rfl) _
        fun other present => if_neg (mt isMissing_refused_iff.mp present)
  | refused last text =>
      exact ⟨_, rfl, .refused last text⟩

/-- Where a file or a long name is on the way, nothing is made. -/
theorem inTree_makeDirectoriesTo_of_blocked
    (plain : tree.IsPlain)
    (rooted : FilePath.IsRooted ⟨slashes, outer.reverse ++ [name]⟩)
    (fits : FilePath.fault? ⟨slashes, outer.reverse ++ [name]⟩ = none)
    {refusal : Refusal}
    (blocked : tree.reach [] outer.reverse = .error refusal)
    (present : refusal ≠ .missing) :
    ∃ result,
      (makeDirectoriesTo slashes (name :: outer)).inTree tree =
          (result, (tree.makeAlong [] (outer.reverse ++ [name])).1) ∧
        EndsMaking (tree.makeAlong [] (outer.reverse ++ [name])).2 result := by
  obtain ⟨last, lastText, ends⟩ :=
    inTree_acceptDirectory_of_refused
      (locate_of_blocked plain rooted fits rfl blocked .target) refusal
      (FilePath.text ⟨slashes, outer.reverse ++ [name]⟩)
  rw [makeDirectoriesTo_cons, List.reverse_cons, makeAlong_append, inTree_bind, inTree_attempt,
    inTree_makeDirectory_of_blocked plain rooted fits blocked]
  dsimp only
  rw [if_neg (mt isMissing_refused_iff.mp present), ends,
    makeAlong_of_blocked plain tree.get?_root blocked present]
  exact ⟨_, rfl, .refused last lastText⟩

end Last

/-- Directories are made from the root on. -/
theorem inTree_makeDirectoriesTo
    (plain : tree.IsPlain)
    (slashes : Nat)
    (names : List String)
    (rooted : FilePath.IsRooted ⟨slashes, names.reverse⟩)
    (fits : FilePath.fault? ⟨slashes, names.reverse⟩ = none) :
    ∃ result,
      (makeDirectoriesTo slashes names).inTree tree =
          (result, (tree.makeAlong [] names.reverse).1) ∧
        EndsMaking (tree.makeAlong [] names.reverse).2 result := by
  induction names with
  | nil =>
      exact ⟨.ok (), inTree_makeRoot rooted fits, .made []⟩
  | cons name outer inductionHypothesis =>
      have shape : (name :: outer).reverse = outer.reverse ++ [name] :=
        List.reverse_cons
      have parentRooted : FilePath.IsRooted ⟨slashes, outer.reverse⟩ := by
        simpa only [FilePath.parent, shape, List.dropLast_concat] using rooted.parent
      have parentFits : FilePath.fault? ⟨slashes, outer.reverse⟩ = none := by
        simpa only [FilePath.parent, shape, List.dropLast_concat] using
          FilePath.fault?_parent rooted.slashes rooted.texts fits
      rw [shape] at rooted fits ⊢
      cases reached : tree.reach [] outer.reverse with
      | ok directory =>
          rw [makeDirectoriesTo_cons, shape, makeAlong_append,
            makeAlong_of_reach plain tree.get?_root reached]
          exact inTree_makeLast plain rooted fits rfl reached _ fun refusal present =>
            if_neg (mt isMissing_refused_iff.mp present)
      | error refusal =>
          by_cases missing : refusal = .missing
          · rw [missing] at reached
            obtain ⟨result, made, ends⟩ := inductionHypothesis parentRooted parentFits
            exact inTree_makeDirectoriesTo_of_missing plain rooted fits reached made ends
          · exact inTree_makeDirectoriesTo_of_blocked plain rooted fits reached missing

/-- Making a directory with those above it is making each of them from the root on. -/
theorem inTree_ensureDirectory
    (plain : tree.IsPlain)
    {path : FilePath}
    (rooted : path.IsRooted)
    (fits : path.fault? = none) :
    ∃ result,
      (ensureDirectory path).inTree tree = (result, (tree.makeAlong [] path.names).1) ∧
        EndsMaking (tree.makeAlong [] path.names).2 result := by
  have twice : path.names.reverse.reverse = path.names :=
    List.reverse_reverse path.names
  have made := inTree_makeDirectoriesTo plain path.slashes path.names.reverse
    (by rw [twice]; exact rooted) (by rw [twice]; exact fits)
  rwa [twice] at made

/-- A path whose text is at fault ends the making of directories before it starts. -/
theorem inTree_ensureDirectory_of_fault
    {path : FilePath}
    {fault : FileFault}
    (found : path.fault? = some fault) :
    (ensureDirectory path).inTree tree = (.error fault, tree) := by
  have located (access : Access) := tree.locate_of_fault found access
  have first : (makeDirectory path).inTree tree = (.error fault, tree) := by
    rw [inTree_makeDirectory, located]
  have notMissing : ¬ isMissing fault = true := by
    rcases FilePath.fault?_cases found with rfl | rfl | rfl <;> exact Bool.false_ne_true
  have last : (acceptDirectory path fault).inTree tree = (.error fault, tree) := by
    rcases FilePath.fault?_cases found with rfl | rfl | rfl
    · rfl
    · rfl
    · rw [inTree_acceptDirectory, isDirectory, entryAt, located]
      rfl
  have shape : (⟨path.slashes, path.names.reverse.reverse⟩ : FilePath) = path := by
    rw [List.reverse_reverse]
  unfold ensureDirectory
  cases reversed : path.names.reverse with
  | nil =>
      rw [reversed] at shape
      rw [makeDirectoriesTo_nil, inTree_bind, inTree_attempt]
      rw [List.reverse_nil] at shape
      rw [shape, first]
      dsimp only
      rw [settle, if_neg notMissing, last]
  | cons name outer =>
      rw [reversed] at shape
      rw [makeDirectoriesTo_cons, shape, inTree_bind, inTree_attempt, first]
      dsimp only
      rw [if_neg notMissing, last]

end Change

end ZodSchemas
