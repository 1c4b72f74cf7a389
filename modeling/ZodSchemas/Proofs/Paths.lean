import ZodSchemas.SchemaUnit.Import

namespace ZodSchemas

/-!
# Relative paths

A specifier is computed from the segments of two absolute paths: up out of what
they do not share, then down.  Followed from the directory that it starts in, it
leads to its target, for any working directory that starts at the root.
-/

/-- The parts of a text are those between the occurrences of the mark. -/
theorem Text.partsAt_eq_splitOn
    (mark : Char)
    (chars : List Char) :
    Text.partsAt mark chars = chars.splitOn mark := by
  induction chars with
  | nil =>
      rfl
  | cons char rest inductionHypothesis =>
      rw [List.splitOn_cons_eq_if_modifyHead, ← inductionHypothesis, Text.partsAt]
      by_cases isMark : char = mark
      · rw [if_pos isMark, if_pos (beq_iff_eq.mpr isMark)]
      · rw [if_neg isMark, if_neg (mt beq_iff_eq.mp isMark)]
        cases split : Text.partsAt mark rest with
        | nil =>
            rw [inductionHypothesis] at split
            exact absurd split (List.splitOn_ne_nil mark rest)
        | cons first others =>
            rfl

theorem Text.not_mem_of_mem_partsAt
    {mark : Char}
    {chars part : List Char}
    (member : part ∈ Text.partsAt mark chars) :
    mark ∉ part := by
  induction chars generalizing part with
  | nil =>
      rw [List.mem_singleton.mp member]
      exact List.not_mem_nil
  | cons char rest inductionHypothesis =>
      rw [Text.partsAt] at member
      by_cases isMark : char = mark
      · rw [if_pos isMark] at member
        rcases List.mem_cons.mp member with isFirst | later
        · rw [isFirst]
          exact List.not_mem_nil
        · exact inductionHypothesis later
      · rw [if_neg isMark] at member
        split at member
        · rw [List.mem_singleton.mp member]
          simpa using Ne.symm isMark
        · rename_i first others split
          rw [split] at inductionHypothesis
          rcases List.mem_cons.mp member with isFirst | later
          · rw [isFirst, List.mem_cons, not_or]
            exact ⟨Ne.symm isMark, inductionHypothesis (.head _)⟩
          · exact inductionHypothesis (.tail _ later)

namespace Path

/-- What may stand between two slashes. -/
def IsSegment (name : String) : Prop :=
  name ≠ "" ∧ '/' ∉ name.toList

/-- A segment that leads one level down. -/
structure Descends (name : String) : Prop where
  segment : IsSegment name
  notHere : name ≠ "."
  notUp : name ≠ ".."

theorem isSegment_of_mem_segments
    {name path : String}
    (member : name ∈ segments path) :
    IsSegment name := by
  obtain ⟨part, inFilter, rfl⟩ := List.mem_map.mp member
  obtain ⟨inParts, filled⟩ := List.mem_filter.mp inFilter
  constructor
  · intro isEmpty
    have noPart : part = [] := by
      rw [← String.toList_ofList (l := part), isEmpty]
      rfl
    simp [noPart] at filled
  · rw [String.toList_ofList]
    exact Text.not_mem_of_mem_partsAt inParts

/-- The segments of two paths with a slash between them are those of both. -/
theorem segments_append_slash
    (first second : String) :
    segments (first ++ "/" ++ second) = segments first ++ segments second := by
  have shape :
      (first ++ "/" ++ second).toList = first.toList ++ '/' :: second.toList := by
    simp [String.toList_append]
  simp only [segments, Text.partsAt_eq_splitOn]
  rw [shape, List.splitOn_append_cons_self, List.filter_append, List.map_append]

theorem segments_empty :
    segments "" = [] :=
  rfl

theorem segments_of_isSegment
    {name : String}
    (isSegment : IsSegment name) :
    segments name = [name] := by
  have filled : name.toList ≠ [] := mt String.toList_eq_nil_iff.mp isSegment.1
  rw [segments, Text.partsAt_eq_splitOn, List.splitOn_eq_singleton isSegment.2]
  simp [filled]

/-- Segments that are joined by slashes are the segments of what they are joined to. -/
theorem segments_intercalate
    {names : List String}
    (areSegments : ∀ name ∈ names, IsSegment name) :
    segments ("/".intercalate names) = names := by
  induction names with
  | nil =>
      rw [String.intercalate_nil, segments_empty]
  | cons name rest inductionHypothesis =>
      rw [List.forall_mem_cons] at areSegments
      by_cases isLast : rest = []
      · rw [isLast, String.intercalate_singleton, segments_of_isSegment areSegments.1]
      · rw [String.intercalate_cons_of_ne_nil isLast, segments_append_slash,
          inductionHypothesis areSegments.2, segments_of_isSegment areSegments.1,
          List.singleton_append]

theorem segments_join
    {directory path : String}
    (relative : isAbsolute path = false) :
    segments (join directory path) = segments directory ++ segments path := by
  rw [join, if_neg (Bool.eq_false_iff.mp relative)]
  split
  · rename_i closed
    rcases closed with noDirectory | endsInSlash
    · rw [String.isEmpty_iff.mp noDirectory, String.empty_append, segments_empty,
        List.nil_append]
    · obtain ⟨front, shape⟩ := List.getLast?_eq_some_iff.mp endsInSlash
      have isFront : directory = String.ofList front ++ "/" := by
        rw [← String.toList_inj, shape, String.toList_append, String.toList_ofList]
        rfl
      have sameSegments : segments directory = segments (String.ofList front) := by
        rw [isFront, ← String.append_empty (s := String.ofList front ++ "/"),
          segments_append_slash, segments_empty, List.append_nil]
      rw [sameSegments, isFront, segments_append_slash]
  · exact segments_append_slash directory path

theorem segments_leading_slashes
    (slashes : Nat)
    (path : String) :
    segments (String.ofList (List.replicate slashes '/') ++ path) = segments path := by
  induction slashes with
  | zero =>
      rw [List.replicate_zero, String.ofList_nil, String.empty_append]
  | succ fewer inductionHypothesis =>
      have shape :
          String.ofList (List.replicate (fewer + 1) '/') ++ path =
            "" ++ "/" ++ (String.ofList (List.replicate fewer '/') ++ path) := by
        rw [← String.toList_inj]
        simp [String.toList_append, List.replicate_succ]
      rw [shape, segments_append_slash, segments_empty, List.nil_append, inductionHypothesis]

/-- A path that is put together from segments has these segments; without any it is the current
directory. -/
theorem segments_ofSegments
    {slashes : Nat}
    {names : List String}
    (areSegments : ∀ name ∈ names, IsSegment name) :
    segments (ofSegments slashes names) =
      if slashes = 0 ∧ names.isEmpty then ["."] else names := by
  unfold ofSegments
  split
  · rfl
  · rw [segments_leading_slashes, segments_intercalate areSegments]

theorem normalSegments_here
    (rooted : Bool)
    (names others : List String) :
    normalSegments rooted (names ++ "." :: others) = normalSegments rooted (names ++ others) := by
  simp [normalSegments, List.foldl_append, pushSegment]

/-- Segments that lead down are all kept. -/
theorem foldl_pushSegment_of_descends
    {rooted : Bool}
    {names : List String}
    (descend : ∀ name ∈ names, Descends name)
    (reversed : List String) :
    names.foldl (pushSegment rooted) reversed = names.reverse ++ reversed := by
  induction names generalizing reversed with
  | nil =>
      rfl
  | cons name rest inductionHypothesis =>
      rw [List.forall_mem_cons] at descend
      have pushed : pushSegment rooted reversed name = name :: reversed := by
        unfold pushSegment
        rw [if_neg descend.1.notHere, if_neg descend.1.notUp]
      rw [List.foldl_cons, pushed, inductionHypothesis descend.2, List.reverse_cons,
        List.append_assoc, List.singleton_append]

/-- As many segments `..` as segments led down lead back. -/
theorem foldl_pushSegment_up
    {rooted : Bool}
    {names : List String}
    (descend : ∀ name ∈ names, Descends name)
    (reversed : List String) :
    (List.replicate names.length "..").foldl (pushSegment rooted) (names ++ reversed) =
      reversed := by
  induction names with
  | nil =>
      rfl
  | cons name rest inductionHypothesis =>
      rw [List.forall_mem_cons] at descend
      have popped : pushSegment rooted (name :: (rest ++ reversed)) ".." = rest ++ reversed := by
        simp [pushSegment, descend.1.notUp]
      rw [List.length_cons, List.replicate_succ, List.foldl_cons, List.cons_append, popped,
        inductionHypothesis descend.2]

/-- Segments that lead down are kept behind the normal form of what precedes them. -/
theorem normalSegments_append
    {rooted : Bool}
    (names : List String)
    {below : List String}
    (descend : ∀ name ∈ below, Descends name) :
    normalSegments rooted (names ++ below) = normalSegments rooted names ++ below := by
  rw [normalSegments, List.foldl_append, foldl_pushSegment_of_descends descend,
    List.reverse_append, List.reverse_reverse]
  rfl

theorem mem_of_mem_pushSegment
    {rooted : Bool}
    {reversed : List String}
    {segment name : String}
    (member : name ∈ pushSegment rooted reversed segment) :
    name = segment ∨ name ∈ reversed := by
  unfold pushSegment at member
  split at member
  · exact .inr member
  · split at member
    · rename_i isUp
      subst segment
      cases reversed with
      | nil =>
          cases rooted with
          | true =>
              contradiction
          | false =>
              exact .inl (List.mem_singleton.mp member)
      | cons last earlier =>
          dsimp only at member
          split at member
          · exact List.mem_cons.mp member
          · exact .inr (.tail _ member)
    · exact List.mem_cons.mp member

theorem mem_of_mem_normalSegments
    {rooted : Bool}
    {names : List String}
    {name : String}
    (member : name ∈ normalSegments rooted names) :
    name ∈ names := by
  have fromFold (reversed : List String)
      (inFold : name ∈ names.foldl (pushSegment rooted) reversed) :
      name ∈ names ∨ name ∈ reversed := by
    clear member
    induction names generalizing reversed with
    | nil =>
        exact .inr inFold
    | cons first rest inductionHypothesis =>
        rcases inductionHypothesis _ inFold with inRest | pushed
        · exact .inl (.tail _ inRest)
        · rcases mem_of_mem_pushSegment pushed with isFirst | inReversed
          · exact .inl (isFirst ▸ .head _)
          · exact .inr inReversed
  exact (fromFold [] (List.mem_reverse.mp member)).resolve_right List.not_mem_nil

theorem isAbsolute_iff
    {path : String} :
    isAbsolute path = true ↔ ∃ rest, path.toList = '/' :: rest := by
  rw [isAbsolute, beq_iff_eq, List.head?_eq_some_iff]

/-- A path that starts at the root keeps a leading slash, and no other one does. -/
theorem rootSlashes_eq_zero_iff
    {path : String} :
    rootSlashes path = 0 ↔ isAbsolute path = false := by
  rw [← Bool.not_eq_true, isAbsolute_iff]
  unfold rootSlashes
  split
  · rename_i shape
    exact ⟨nofun, fun noSlash => (noSlash ⟨_, shape⟩).elim⟩
  · rename_i shape
    exact ⟨nofun, fun noSlash => (noSlash ⟨_, shape⟩).elim⟩
  · rename_i shape
    exact ⟨nofun, fun noSlash => (noSlash ⟨_, shape⟩).elim⟩
  · rename_i noSlash
    exact ⟨fun _ ⟨rest, shape⟩ => noSlash rest shape, fun _ => rfl⟩

theorem isAbsolute_append
    {path : String}
    (rooted : isAbsolute path = true)
    (rest : String) :
    isAbsolute (path ++ rest) = true := by
  obtain ⟨below, shape⟩ := isAbsolute_iff.mp rooted
  exact isAbsolute_iff.mpr ⟨below ++ rest.toList, by rw [String.toList_append, shape]; rfl⟩

theorem isAbsolute_join
    {directory : String}
    (rooted : isAbsolute directory = true)
    (path : String) :
    isAbsolute (join directory path) = true := by
  unfold join
  split
  · assumption
  · split
    · exact isAbsolute_append rooted path
    · rw [String.append_assoc]
      exact isAbsolute_append rooted _

/-- The absolute form of a relative path has the normal form of the segments of both. -/
theorem segments_absolute
    {workingDirectory path : String}
    (rooted : isAbsolute workingDirectory = true)
    (relative : isAbsolute path = false) :
    segments (absolute workingDirectory path) =
      normalSegments true (segments workingDirectory ++ segments path) := by
  have slashes : rootSlashes (join workingDirectory path) ≠ 0 := by
    rw [ne_eq, rootSlashes_eq_zero_iff, isAbsolute_join rooted]
    decide
  have areSegments :
      ∀ name ∈ normalSegments true (segments (join workingDirectory path)), IsSegment name :=
    fun name member => isSegment_of_mem_segments (mem_of_mem_normalSegments member)
  rw [absolute, if_neg (Bool.eq_false_iff.mp relative), normalize, bne_iff_ne.mpr slashes,
    segments_ofSegments areSegments, if_neg fun empty => slashes empty.1, segments_join relative]

/-- What two lists share at their front is at the front of both. -/
theorem take_sharedLength
    (start target : List String) :
    start.take (sharedLength start target) = target.take (sharedLength start target) := by
  fun_induction sharedLength start target with
  | case1 first rest others inductionHypothesis =>
      rw [List.take_succ_cons, List.take_succ_cons, inductionHypothesis]
  | case2 =>
      rfl
  | case3 =>
      rfl

/-- What two paths have in common makes no difference to the way between them. -/
theorem climb_append_left
    (front start target : List String) :
    climb (front ++ start) (front ++ target) = climb start target := by
  have shared :
      sharedLength (front ++ start) (front ++ target) =
        front.length + sharedLength start target := by
    induction front with
    | nil =>
        simp
    | cons name rest inductionHypothesis =>
        rw [List.cons_append, List.cons_append, sharedLength, if_pos rfl, inductionHypothesis,
          List.length_cons]
        omega
  rw [climb, climb, shared, List.drop_length_add_append, List.length_append,
    Nat.add_sub_add_left]

/-- The way from one directory to a target leads from the directory to the target. -/
theorem normalSegments_climb
    (rooted : Bool)
    {start target : List String}
    (startDescends : ∀ name ∈ start, Descends name)
    (targetDescends : ∀ name ∈ target, Descends name) :
    normalSegments rooted (start ++ climb start target) = target := by
  let shared := sharedLength start target
  -- Of the reversed start, the part that is not shared stands in front and is taken away.
  have startShape :
      start.reverse ++ [] = (start.drop shared).reverse ++ (start.take shared).reverse := by
    rw [List.append_nil, ← List.reverse_append, List.take_append_drop]
  have away :
      (List.replicate (start.length - shared) "..").foldl (pushSegment rooted)
          (start.reverse ++ []) =
        (start.take shared).reverse := by
    have droppedDescends : ∀ name ∈ (start.drop shared).reverse, Descends name :=
      fun name member => startDescends name (List.mem_of_mem_drop (List.mem_reverse.mp member))
    rw [startShape, ← List.length_drop, ← List.length_reverse,
      foldl_pushSegment_up droppedDescends]
  have belowDescends : ∀ name ∈ target.drop shared, Descends name :=
    fun name member => targetDescends name (List.mem_of_mem_drop member)
  rw [normalSegments, climb, List.foldl_append, List.foldl_append,
    foldl_pushSegment_of_descends startDescends, away,
    foldl_pushSegment_of_descends belowDescends, List.reverse_append, List.reverse_reverse,
    List.reverse_reverse, take_sharedLength, List.take_append_drop]

theorem isSegment_of_mem_climb
    {start target : List String}
    (areSegments : ∀ name ∈ target, IsSegment name) :
    ∀ name ∈ climb start target, IsSegment name := by
  intro name member
  rcases List.mem_append.mp member with isUp | below
  · rw [List.eq_of_mem_replicate isUp]
    exact ⟨by decide, by decide⟩
  · exact areSegments name (List.mem_of_mem_drop below)

/-- Followed from its start, the text of the way between two directories leads to the target. -/
theorem normalSegments_ofSegments_climb
    (rooted : Bool)
    {start target : List String}
    (startDescends : ∀ name ∈ start, Descends name)
    (targetDescends : ∀ name ∈ target, Descends name) :
    normalSegments rooted (start ++ segments (ofSegments 0 (climb start target))) = target := by
  have areSegments : ∀ name ∈ climb start target, IsSegment name :=
    isSegment_of_mem_climb fun name member => (targetDescends name member).segment
  rw [segments_ofSegments areSegments]
  split
  · rename_i noWay
    have way := normalSegments_climb rooted startDescends targetDescends
    rw [List.isEmpty_iff.mp noWay.2] at way
    rw [normalSegments_here, way]
  · exact normalSegments_climb rooted startDescends targetDescends

/-- Whether a path starts at the root is seen at its front. -/
theorem isAbsolute_append_of_ne_empty
    {path : String}
    (filled : path ≠ "")
    (rest : String) :
    isAbsolute (path ++ rest) = isAbsolute path := by
  obtain ⟨first, others, shape⟩ :=
    List.exists_cons_of_ne_nil (mt String.toList_eq_nil_iff.mp filled)
  rw [isAbsolute, isAbsolute, String.toList_append, shape]
  rfl

theorem isAbsolute_join_of_relative
    {directory path : String}
    (directoryRelative : isAbsolute directory = false)
    (pathRelative : isAbsolute path = false) :
    isAbsolute (join directory path) = false := by
  by_cases noDirectory : directory = ""
  · subst directory
    rwa [join, if_neg (Bool.eq_false_iff.mp pathRelative), if_pos (.inl rfl), String.empty_append]
  · rw [join, if_neg (Bool.eq_false_iff.mp pathRelative)]
    split
    · rwa [isAbsolute_append_of_ne_empty noDirectory]
    · rwa [String.append_assoc, isAbsolute_append_of_ne_empty noDirectory]

theorem IsSegment.isAbsolute_eq_false
    {name : String}
    (isSegment : IsSegment name) :
    isAbsolute name = false := by
  rw [← Bool.not_eq_true, isAbsolute_iff]
  rintro ⟨below, shape⟩
  exact isSegment.2 (shape ▸ .head _)

theorem isAbsolute_intercalate
    {names : List String}
    (areSegments : ∀ name ∈ names, IsSegment name) :
    isAbsolute ("/".intercalate names) = false := by
  cases names with
  | nil =>
      rfl
  | cons name rest =>
      have isSegment := areSegments name (.head _)
      have nameRelative := isSegment.isAbsolute_eq_false
      by_cases isLast : rest = []
      · rwa [isLast, String.intercalate_singleton]
      · rwa [String.intercalate_cons_of_ne_nil isLast, String.append_assoc,
          isAbsolute_append_of_ne_empty isSegment.1]

end Path

/-- A relative path as a specifier: with a point at its front. -/
def pointed (path : String) : String :=
  if path.toList.head? = some '.' then path else "./" ++ path

/-- The point at its front leads nowhere else. -/
theorem normalSegments_pointed
    (rooted : Bool)
    (names : List String)
    (path : String) :
    Path.normalSegments rooted (names ++ Path.segments (pointed path)) =
      Path.normalSegments rooted (names ++ Path.segments path) := by
  unfold pointed
  split
  · rfl
  · have shape : "./" ++ path = "." ++ "/" ++ path := by
      rfl
    rw [shape, Path.segments_append_slash]
    exact Path.normalSegments_here rooted names (Path.segments path)

theorem head?_pointed
    (path : String) :
    (pointed path).toList.head? = some '.' := by
  unfold pointed
  split
  · assumption
  · rw [String.toList_append]
    rfl

theorem isAbsolute_pointed
    (path : String) :
    Path.isAbsolute (pointed path) = false := by
  rw [Path.isAbsolute, head?_pointed]
  decide

/-- A specifier is the way between the absolute forms of its ends. -/
theorem specifier_of_ne_empty
    {workingDirectory start target : String}
    (filled : target ≠ "") :
    specifier workingDirectory start target =
      pointed
        (Path.ofSegments 0
          (Path.climb (Path.segments (Path.absolute workingDirectory start))
            (Path.segments (Path.absolute workingDirectory target)))) := by
  have notEmpty : target.isEmpty = false :=
    Bool.eq_false_iff.mpr (mt String.isEmpty_iff.mp filled)
  simp only [specifier, Path.specifier?, Path.relative?, notEmpty, Bool.false_eq_true, ↓reduceIte,
    Option.map_some, Option.getD_some, pointed]

/-- Where the specifiers of a directory start. -/
theorem segments_absolute_start
    {workingDirectory directory : String}
    (rooted : Path.isAbsolute workingDirectory = true)
    (relative : Path.isAbsolute directory = false)
    (descends : ∀ name ∈ Path.segments directory, Path.Descends name) :
    Path.segments
        (Path.absolute workingDirectory (if directory.isEmpty then "." else directory)) =
      Path.normalSegments true (Path.segments workingDirectory) ++ Path.segments directory := by
  split
  · rename_i noDirectory
    have here : Path.segments "." = ["."] := by
      decide
    rw [String.isEmpty_iff.mp noDirectory, Path.segments_absolute rooted (by decide), here,
      Path.normalSegments_here, Path.segments_empty, List.append_nil, List.append_nil]
  · rw [Path.segments_absolute rooted relative, Path.normalSegments_append _ descends]

/-- Followed from the directory that it starts in, a specifier leads to its target. -/
theorem normalize_join_specifier
    {workingDirectory directory : String}
    (rooted : Path.isAbsolute workingDirectory = true)
    (relative : Path.isAbsolute directory = false)
    (directoryDescends : ∀ name ∈ Path.segments directory, Path.Descends name)
    {names : List String}
    (filled : names ≠ [])
    (namesDescend : ∀ name ∈ names, Path.Descends name) :
    Path.normalize
        (Path.join directory
          (specifier workingDirectory (if directory.isEmpty then "." else directory)
            ("/".intercalate names))) =
      "/".intercalate names := by
  have areSegments : ∀ name ∈ names, Path.IsSegment name :=
    fun name member => (namesDescend name member).segment
  have targetSegments := Path.segments_intercalate areSegments
  have targetFilled : "/".intercalate names ≠ "" := by
    intro isEmpty
    rw [isEmpty, Path.segments_empty] at targetSegments
    exact filled targetSegments.symm
  have targetAbsolute :
      Path.segments (Path.absolute workingDirectory ("/".intercalate names)) =
        Path.normalSegments true (Path.segments workingDirectory) ++ names := by
    rw [Path.segments_absolute rooted (Path.isAbsolute_intercalate areSegments), targetSegments,
      Path.normalSegments_append _ namesDescend]
  -- Both ends start at the working directory, which the way between them does not depend on.
  rw [specifier_of_ne_empty targetFilled,
    segments_absolute_start rooted relative directoryDescends, targetAbsolute,
    Path.climb_append_left]
  have joinRelative (path : String) :
      Path.rootSlashes (Path.join directory (pointed path)) = 0 :=
    Path.rootSlashes_eq_zero_iff.mpr
      (Path.isAbsolute_join_of_relative relative (isAbsolute_pointed path))
  rw [Path.normalize, joinRelative, Path.segments_join (isAbsolute_pointed _)]
  simp only [bne_self_eq_false]
  rw [normalSegments_pointed,
    Path.normalSegments_ofSegments_climb false directoryDescends namesDescend, Path.ofSegments,
    if_neg (fun empty => filled (List.isEmpty_iff.mp empty.2))]
  rfl

theorem SchemaUnit.clientPlace_ne_empty
    (context : Context) :
    SchemaUnit.clientPlace context ≠ "" := by
  unfold SchemaUnit.clientPlace
  split
  · split
    · decide
    · rename_i filled
      simpa using filled
  · decide

end ZodSchemas
