import Mathlib.Data.List.Induction
import ZodSchemas.Proofs.Paths

namespace ZodSchemas.Path

/-!
# Normal forms of joined paths

A normal form goes up some levels, which it cannot at the root, and then down.
A path that is joined to a directory takes away as many segments of it as it
goes up.  So the joined path lies below the directory exactly if it then goes
down the same way again and further, and has not been beyond the start of a
relative directory.
-/

/-- The segments of the normal form of a path. -/
def normalNames (path : String) : List String :=
  normalSegments (rootSlashes path != 0) (segments path)

/-- A reversed normal form: segments that lead down behind some that lead up. -/
def IsNormal (rooted : Bool) (reversed : List String) : Prop :=
  ∃ downs climbs,
    (∀ name ∈ downs, Descends name) ∧
      reversed = downs ++ List.replicate climbs ".." ∧ (rooted = true → climbs = 0)

theorem pushSegment_here
    (rooted : Bool)
    (reversed : List String) :
    pushSegment rooted reversed "." = reversed := by
  simp [pushSegment]

theorem pushSegment_down
    {segment : String}
    (notHere : segment ≠ ".")
    (notUp : segment ≠ "..")
    (rooted : Bool)
    (reversed : List String) :
    pushSegment rooted reversed segment = segment :: reversed := by
  simp [pushSegment, notHere, notUp]

theorem pushSegment_up
    {last : String}
    (leads : Descends last)
    (rooted : Bool)
    (earlier : List String) :
    pushSegment rooted (last :: earlier) ".." = earlier := by
  simp [pushSegment, leads.notUp]

theorem pushSegment_climb
    (climbs : Nat) :
    pushSegment false (List.replicate climbs "..") ".." = List.replicate (climbs + 1) ".." := by
  cases climbs <;> rfl

theorem pushSegment_root :
    pushSegment true [] ".." = [] :=
  rfl

/-- A further segment keeps a normal form normal. -/
theorem IsNormal.push
    {rooted : Bool}
    {reversed : List String}
    (normal : IsNormal rooted reversed)
    {segment : String}
    (isSegment : IsSegment segment) :
    IsNormal rooted (pushSegment rooted reversed segment) := by
  obtain ⟨downs, climbs, descend, rfl, atRoot⟩ := normal
  by_cases here : segment = "."
  · rw [here, pushSegment_here]
    exact ⟨downs, climbs, descend, rfl, atRoot⟩
  by_cases up : segment = ".."
  · rw [up]
    cases downs with
    | cons last earlier =>
        rw [List.forall_mem_cons] at descend
        rw [List.cons_append, pushSegment_up descend.1]
        exact ⟨earlier, climbs, descend.2, rfl, atRoot⟩
    | nil =>
        cases rooted with
        | true =>
            rw [atRoot rfl]
            exact ⟨[], 0, nofun, rfl, fun _ => rfl⟩
        | false =>
            exact ⟨[], climbs + 1, nofun, pushSegment_climb climbs, nofun⟩
  · rw [pushSegment_down here up]
    exact ⟨segment :: downs, climbs,
      List.forall_mem_cons.mpr ⟨⟨isSegment, here, up⟩, descend⟩, rfl, atRoot⟩

theorem IsNormal.foldl_push
    {rooted : Bool}
    {names : List String}
    (areSegments : ∀ name ∈ names, IsSegment name)
    {reversed : List String}
    (normal : IsNormal rooted reversed) :
    IsNormal rooted (names.foldl (pushSegment rooted) reversed) := by
  induction names generalizing reversed with
  | nil =>
      exact normal
  | cons name rest inductionHypothesis =>
      rw [List.forall_mem_cons] at areSegments
      exact inductionHypothesis areSegments.2 (normal.push areSegments.1)

/-- A normal form goes up and then down, and at the root down only. -/
theorem exists_climbs_downs
    (rooted : Bool)
    {names : List String}
    (areSegments : ∀ name ∈ names, IsSegment name) :
    ∃ climbs downs,
      (∀ name ∈ downs, Descends name) ∧
        normalSegments rooted names = List.replicate climbs ".." ++ downs ∧
        (rooted = true → climbs = 0) := by
  have start : IsNormal rooted [] := ⟨[], 0, nofun, rfl, fun _ => rfl⟩
  obtain ⟨downs, climbs, descend, shape, atRoot⟩ := start.foldl_push areSegments
  refine ⟨climbs, downs.reverse, fun name member => descend name (List.mem_reverse.mp member),
    ?_, atRoot⟩
  rw [normalSegments, shape, List.reverse_append, List.reverse_replicate]

/-- The segments of a path and those of its normal form have the same effect on what precedes. -/
theorem foldl_pushSegment_normalSegments
    {names : List String}
    (areSegments : ∀ name ∈ names, IsSegment name)
    (rooted : Bool)
    (reversed : List String) :
    (normalSegments false names).foldl (pushSegment rooted) reversed =
      names.foldl (pushSegment rooted) reversed := by
  induction names using List.reverseRecOn with
  | nil =>
      rfl
  | append_singleton names last inductionHypothesis =>
      rw [List.forall_mem_append, List.forall_mem_singleton] at areSegments
      have earlier := inductionHypothesis areSegments.1
      have pushed :
          normalSegments false (names ++ [last]) =
            (pushSegment false (normalSegments false names).reverse last).reverse := by
        simp [normalSegments]
      obtain ⟨climbs, downs, descend, shape, -⟩ :=
        exists_climbs_downs false areSegments.1
      rw [List.foldl_append, ← earlier, pushed, List.foldl_cons, List.foldl_nil]
      by_cases here : last = "."
      · rw [here, pushSegment_here, pushSegment_here, List.reverse_reverse]
      by_cases up : last = ".."
      · rw [shape, up]
        cases downs using List.reverseRecOn with
        | nil =>
            rw [List.append_nil, List.reverse_replicate, pushSegment_climb, List.reverse_replicate,
              List.replicate_succ', List.foldl_append, List.foldl_cons, List.foldl_nil]
        | append_singleton downs lowest =>
            have leads : Descends lowest := descend lowest (by simp)
            rw [← List.append_assoc]
            generalize List.replicate climbs ".." ++ downs = front
            rw [List.reverse_append, List.reverse_singleton, List.singleton_append,
              pushSegment_up leads, List.reverse_reverse, List.foldl_append, List.foldl_cons,
              List.foldl_nil, pushSegment_down leads.notHere leads.notUp, pushSegment_up leads]
      · rw [pushSegment_down here up, List.reverse_cons, List.reverse_reverse, List.foldl_append,
          List.foldl_cons, List.foldl_nil]

/-- Segments `..` take as many segments away, and then go up where that is possible. -/
theorem foldl_pushSegment_climbs
    {rooted : Bool}
    {downs : List String}
    (descend : ∀ name ∈ downs, Descends name)
    {before : Nat}
    (atRoot : rooted = true → before = 0)
    (climbs : Nat) :
    (List.replicate climbs "..").foldl (pushSegment rooted)
        (downs ++ List.replicate before "..") =
      downs.drop climbs
        ++ List.replicate (if rooted then 0 else before + (climbs - downs.length)) ".." := by
  induction climbs generalizing downs before with
  | zero =>
      cases rooted with
      | true =>
          simp [atRoot rfl]
      | false =>
          simp
  | succ climbs inductionHypothesis =>
      rw [List.replicate_succ, List.foldl_cons]
      cases downs with
      | cons last earlier =>
          rw [List.forall_mem_cons] at descend
          rw [List.cons_append, pushSegment_up descend.1, inductionHypothesis descend.2 atRoot]
          simp
      | nil =>
          have further {others : Nat} (othersAtRoot : rooted = true → others = 0) :=
            inductionHypothesis descend othersAtRoot
          simp only [List.nil_append, List.drop_nil, List.length_nil, Nat.sub_zero] at further ⊢
          cases rooted with
          | true =>
              rw [atRoot rfl, List.replicate_zero, pushSegment_root]
              exact further fun _ => rfl
          | false =>
              rw [pushSegment_climb, further nofun, Nat.add_assoc, Nat.add_comm 1]

/-- How far a normal form goes up is told by its front. -/
theorem climbs_append_inj
    {climbs others : Nat}
    {downs otherDowns : List String}
    (descend : ∀ name ∈ downs, Descends name)
    (otherDescend : ∀ name ∈ otherDowns, Descends name) :
    List.replicate climbs ".." ++ downs = List.replicate others ".." ++ otherDowns ↔
      climbs = others ∧ downs = otherDowns := by
  have notUp {names : List String} (lead : ∀ name ∈ names, Descends name)
      {rest : List String} : names ≠ ".." :: rest := by
    rintro rfl
    exact (lead ".." (.head _)).notUp rfl
  induction climbs generalizing others with
  | zero =>
      cases others with
      | zero =>
          simp
      | succ others =>
          simpa [List.replicate_succ] using notUp descend
  | succ climbs inductionHypothesis =>
      cases others with
      | zero =>
          simpa [List.replicate_succ] using (notUp otherDescend).symm
      | succ others =>
          simpa [List.replicate_succ] using inductionHypothesis

/-- What follows a text adds no leading slash to it, unless the text is open to one. -/
theorem rootSlashes_eq_of_tail
    {directory path : String}
    {tail : List Char}
    (shape : path.toList = directory.toList ++ tail)
    (apart :
      directory.toList = [] ∨ directory.toList.getLast? = some '/' → tail.head? ≠ some '/') :
    rootSlashes path = rootSlashes directory := by
  unfold rootSlashes
  rw [shape]
  generalize directory.toList = chars at apart ⊢
  have noSlash (isOpen : chars = [] ∨ chars.getLast? = some '/') {next : Char}
      {others : List Char} (isTail : tail = next :: others) : next ≠ '/' := by
    rintro rfl
    exact apart isOpen (isTail ▸ rfl)
  rcases chars with _ | ⟨first, _ | ⟨second, _ | ⟨third, rest⟩⟩⟩
  · rcases tail with _ | ⟨next, others⟩
    · rfl
    · simp [noSlash (.inl rfl) rfl]
  · by_cases rooted : first = '/'
    · subst rooted
      rcases tail with _ | ⟨next, others⟩
      · rfl
      · simp [noSlash (.inr rfl) rfl]
    · simp [rooted]
  · by_cases doubled : first = '/' ∧ second = '/'
    · obtain ⟨rfl, rfl⟩ := doubled
      rcases tail with _ | ⟨next, others⟩
      · rfl
      · simp [noSlash (.inr rfl) rfl]
    · by_cases rooted : first = '/'
      · simp [rooted, show second ≠ '/' from fun same => doubled ⟨rooted, same⟩]
      · simp [rooted]
  · -- The first three characters decide.
    by_cases rooted : first = '/'
    · by_cases doubled : second = '/'
      · by_cases tripled : third = '/' <;> simp [rooted, doubled, tripled]
      · simp [rooted, doubled]
    · simp [rooted]

/-- A relative path leaves the leading slashes of the directory that it is joined to. -/
theorem rootSlashes_join
    (directory : String)
    {path : String}
    (relative : isAbsolute path = false) :
    rootSlashes (join directory path) = rootSlashes directory := by
  have head : path.toList.head? ≠ some '/' := by
    simpa [isAbsolute] using relative
  rw [join, if_neg (Bool.eq_false_iff.mp relative)]
  split
  · exact rootSlashes_eq_of_tail String.toList_append fun _ => head
  · rename_i closed
    rw [not_or, String.isEmpty_iff] at closed
    have shape : (directory ++ "/" ++ path).toList = directory.toList ++ '/' :: path.toList := by
      simp [String.toList_append]
    refine rootSlashes_eq_of_tail shape fun isOpen => ?_
    rw [String.toList_eq_nil_iff] at isOpen
    exact absurd isOpen (not_or.mpr closed)

theorem normalNames_eq
    (path : String) :
    normalNames path = normalSegments (isAbsolute path) (segments path) := by
  have rooted : (rootSlashes path != 0) = isAbsolute path := by
    cases absolute : isAbsolute path with
    | false =>
        rw [rootSlashes_eq_zero_iff.mpr absolute]
        rfl
    | true =>
        rw [bne_iff_ne, ne_eq, rootSlashes_eq_zero_iff, absolute]
        decide
  rw [normalNames, rooted]

/-- The normal form of a path goes up and then down, and at the root down only. -/
theorem exists_normalNames_eq
    (path : String) :
    ∃ climbs downs,
      (∀ name ∈ downs, Descends name) ∧
        normalNames path = List.replicate climbs ".." ++ downs ∧
        (isAbsolute path = true → climbs = 0) := by
  rw [normalNames_eq]
  exact exists_climbs_downs (isAbsolute path) fun _ member => isSegment_of_mem_segments member

theorem isSegment_of_mem_normalNames
    {name path : String}
    (member : name ∈ normalNames path) :
    IsSegment name :=
  isSegment_of_mem_segments (mem_of_mem_normalSegments member)

/-- A normal form has no segment for the present directory. -/
theorem here_not_mem_normalNames
    (path : String) :
    "." ∉ normalNames path := by
  obtain ⟨climbs, downs, descend, shape, -⟩ := exists_normalNames_eq path
  rw [shape, List.mem_append, not_or]
  exact ⟨fun climbed => absurd (List.eq_of_mem_replicate climbed) (by decide),
    fun down => (descend "." down).notHere rfl⟩

/-- At the root all segments of a normal form lead down. -/
theorem descends_of_mem_normalNames
    {path : String}
    (rooted : isAbsolute path = true) :
    ∀ name ∈ normalNames path, Descends name := by
  obtain ⟨climbs, downs, descend, shape, atRoot⟩ := exists_normalNames_eq path
  rwa [shape, atRoot rooted, List.replicate_zero, List.nil_append]

theorem isAbsolute_join_iff
    (directory : String)
    {path : String}
    (relative : isAbsolute path = false) :
    isAbsolute (join directory path) = isAbsolute directory := by
  cases absolute : isAbsolute directory with
  | false =>
      exact isAbsolute_join_of_relative absolute relative
  | true =>
      exact isAbsolute_join absolute path

/-- Whether the normal form of a path is that of a directory followed by segments that lead
down. -/
def LiesBelow (directory path : String) : Prop :=
  rootSlashes path = rootSlashes directory ∧
    ∃ below,
      below ≠ [] ∧ (∀ name ∈ below, Descends name) ∧
        normalNames path = normalNames directory ++ below

/-- The segments of a directory's normal form that lead down. -/
def ownNames (directory : String) : List String :=
  (normalNames directory).filter (· ≠ "..")

/-- Whether a path that is followed from a directory comes back to it.  What it goes up, it goes
down again the same way and further; it does not leave the start of a relative directory. -/
def LeadsBack (directory path : String) : Prop :=
  ∃ climbs below,
    below ≠ [] ∧ (∀ name ∈ below, Descends name) ∧
      normalSegments false (segments path) =
        List.replicate climbs ".."
          ++ ((ownNames directory).drop ((ownNames directory).length - climbs) ++ below) ∧
      (climbs ≤ (ownNames directory).length ∨ isAbsolute directory = true)

/-- The normal form of a joined path loses a segment of the directory for each level that the path
goes up. -/
theorem normalNames_join
    {directory path : String}
    (relative : isAbsolute path = false)
    {before climbs : Nat}
    {own downs : List String}
    (ownDescend : ∀ name ∈ own, Descends name)
    (directoryShape : normalNames directory = List.replicate before ".." ++ own)
    (atRoot : isAbsolute directory = true → before = 0)
    (descend : ∀ name ∈ downs, Descends name)
    (pathShape : normalSegments false (segments path) = List.replicate climbs ".." ++ downs) :
    normalNames (join directory path) =
      List.replicate (if isAbsolute directory then 0 else before + (climbs - own.length)) ".."
        ++ (own.take (own.length - climbs) ++ downs) := by
  have pathSegments : ∀ name ∈ segments path, IsSegment name :=
    fun _ member => isSegment_of_mem_segments member
  have directoryFold :
      (segments directory).foldl (pushSegment (isAbsolute directory)) [] =
        own.reverse ++ List.replicate before ".." := by
    rw [normalNames_eq, normalSegments, List.reverse_eq_iff] at directoryShape
    rw [directoryShape, List.reverse_append, List.reverse_replicate]
  have ownReverse : ∀ name ∈ own.reverse, Descends name :=
    fun name member => ownDescend name (List.mem_reverse.mp member)
  rw [normalNames_eq, isAbsolute_join_iff directory relative, segments_join relative,
    normalSegments, List.foldl_append, directoryFold,
    ← foldl_pushSegment_normalSegments pathSegments, pathShape, List.foldl_append,
    foldl_pushSegment_climbs ownReverse atRoot, foldl_pushSegment_of_descends descend]
  simp [List.drop_reverse]

/-- A joined path lies below its directory exactly if it comes back to it. -/
theorem liesBelow_join_iff
    {directory path : String}
    (relative : isAbsolute path = false) :
    LiesBelow directory (join directory path) ↔ LeadsBack directory path := by
  obtain ⟨before, own, ownDescend, directoryShape, atRoot⟩ := exists_normalNames_eq directory
  obtain ⟨climbs, downs, descend, pathShape, -⟩ :=
    exists_climbs_downs false
      fun name (member : name ∈ segments path) => isSegment_of_mem_segments member
  have isOwn : ownNames directory = own := by
    rw [ownNames, directoryShape, List.filter_append, List.filter_replicate,
      List.filter_eq_self.mpr fun name member => by simp [(ownDescend name member).notUp]]
    simp
  rw [LiesBelow, LeadsBack, rootSlashes_join directory relative, isOwn,
    normalNames_join relative ownDescend directoryShape atRoot descend pathShape, directoryShape,
    pathShape]
  have takeDescends : ∀ name ∈ own.take (own.length - climbs) ++ downs, Descends name :=
    List.forall_mem_append.mpr
      ⟨fun name member => ownDescend name (List.mem_of_mem_take member), descend⟩
  constructor
  · rintro ⟨-, below, filled, belowDescends, same⟩
    rw [List.append_assoc, climbs_append_inj takeDescends
      (List.forall_mem_append.mpr ⟨ownDescend, belowDescends⟩)] at same
    obtain ⟨sameClimbs, sameNames⟩ := same
    refine ⟨climbs, below, filled, belowDescends, ?_, ?_⟩
    · have split :
          own.take (own.length - climbs) ++ downs =
            own.take (own.length - climbs) ++ (own.drop (own.length - climbs) ++ below) := by
        rw [sameNames, ← List.append_assoc, List.take_append_drop]
      rw [List.append_cancel_left split]
    · cases rooted : isAbsolute directory with
      | true =>
          exact .inr rfl
      | false =>
          simp only [rooted, Bool.false_eq_true, ↓reduceIte] at sameClimbs
          exact .inl (by omega)
  · rintro ⟨others, below, filled, belowDescends, same, inside⟩
    have dropDescends : ∀ name ∈ own.drop (own.length - others) ++ below, Descends name :=
      List.forall_mem_append.mpr
        ⟨fun name member => ownDescend name (List.mem_of_mem_drop member), belowDescends⟩
    obtain ⟨rfl, rfl⟩ := (climbs_append_inj descend dropDescends).mp same
    have sameClimbs :
        (if isAbsolute directory then 0 else before + (climbs - own.length)) = before := by
      cases rooted : isAbsolute directory with
      | true =>
          exact (atRoot rooted).symm
      | false =>
          have noFurther : climbs ≤ own.length := by simpa [rooted] using inside
          simp [Nat.sub_eq_zero_of_le noFurther]
    refine ⟨rfl, below, filled, belowDescends, ?_⟩
    rw [sameClimbs, ← List.append_assoc (own.take _), List.take_append_drop, List.append_assoc]

/-- Segments that never go up have a normal form without the present directory. -/
theorem normalSegments_of_up_not_mem
    {names : List String}
    (staysDown : ".." ∉ names)
    (rooted : Bool) :
    normalSegments rooted names = names.filter (· ≠ ".") := by
  induction names using List.reverseRecOn with
  | nil =>
      rfl
  | append_singleton names last inductionHypothesis =>
      rw [List.mem_append, List.mem_singleton, not_or] at staysDown
      have earlier := inductionHypothesis staysDown.1
      rw [normalSegments, List.reverse_eq_iff] at earlier
      rw [normalSegments, List.foldl_append, earlier, List.foldl_cons, List.foldl_nil,
        List.filter_append]
      by_cases here : last = "."
      · rw [here, pushSegment_here]
        simp
      · rw [pushSegment_down here (Ne.symm staysDown.2)]
        simp [here]

/-- A path that never goes up comes back. -/
theorem leadsBack_of_up_not_mem
    (directory : String)
    {path name : String}
    (staysDown : ".." ∉ segments path)
    (member : name ∈ segments path)
    (notHere : name ≠ ".") :
    LeadsBack directory path := by
  refine ⟨0, (segments path).filter (· ≠ "."), ?_, ?_, ?_, .inl (Nat.zero_le _)⟩
  · exact List.ne_nil_of_mem (List.mem_filter.mpr ⟨member, by simpa using notHere⟩)
  · intro other otherMember
    obtain ⟨inPath, otherNotHere⟩ := List.mem_filter.mp otherMember
    exact ⟨isSegment_of_mem_segments inPath, by simpa using otherNotHere,
      fun up => staysDown (up ▸ inPath)⟩
  · rw [normalSegments_of_up_not_mem staysDown, Nat.sub_zero, List.drop_length]
    rfl

end ZodSchemas.Path
