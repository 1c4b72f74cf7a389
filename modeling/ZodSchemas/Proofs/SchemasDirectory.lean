import ZodSchemas.FilePath
import ZodSchemas.Proofs.HostModules

namespace ZodSchemas

/-!
# The directory of the generated modules

Whether the output path ends in the directory of the modules is decided on its
normal form, but the directory is joined to the path as it is written.  A normal
form has the leading slashes of its path and the segments that are left of it,
and a segment that leads down is appended to both in the same way.  So the
directory is there once, however the path is written, and a second time changes
nothing.
-/

namespace Path

/-- The text behind the last slash of a joined path is what was joined. -/
theorem baseName_append_slash
    (directory : String)
    {name : String}
    (plain : '/' ∉ name.toList) :
    baseName (directory ++ "/" ++ name) = name := by
  have shape :
      (directory ++ "/" ++ name).toList = directory.toList ++ '/' :: name.toList := by
    simp [String.toList_append]
  rw [baseName, Text.partsAt_eq_splitOn, shape, List.splitOn_append_cons_self,
    List.splitOn_eq_singleton plain, List.getLast?_concat, Option.getD_some, String.ofList_toList]

theorem baseName_of_plain
    {name : String}
    (plain : '/' ∉ name.toList) :
    baseName name = name := by
  rw [baseName, Text.partsAt_eq_splitOn, List.splitOn_eq_singleton plain, List.getLast?_singleton,
    Option.getD_some, String.ofList_toList]

/-- A path that is put together from segments is its last one, or has it behind a slash. -/
theorem ofSegments_concat
    (slashes : Nat)
    (names : List String)
    (name : String) :
    ofSegments slashes (names ++ [name]) = name ∨
      ∃ directory, ofSegments slashes (names ++ [name]) = directory ++ "/" ++ name := by
  have filled : ¬ (slashes = 0 ∧ (names ++ [name]).isEmpty = true) := by
    simp
  rw [ofSegments, if_neg filled]
  by_cases isFirst : names = []
  · rw [isFirst, List.nil_append, String.intercalate_singleton]
    cases slashes with
    | zero =>
        exact .inl String.empty_append
    | succ fewer =>
        refine .inr ⟨String.ofList (List.replicate fewer '/'), ?_⟩
        rw [List.replicate_succ', String.ofList_append]
  · rw [String.intercalate_append_of_ne_nil isFirst (List.cons_ne_nil name []),
      String.intercalate_singleton]
    refine .inr ⟨String.ofList (List.replicate slashes '/') ++ "/".intercalate names, ?_⟩
    simp only [String.append_assoc]

/-- The text behind the last slash is the last segment.  Without any there is nothing behind the
root, and the current directory is a point. -/
theorem baseName_ofSegments
    (slashes : Nat)
    {names : List String}
    (areSegments : ∀ name ∈ names, IsSegment name) :
    baseName (ofSegments slashes names) = names.getLastD (if slashes = 0 then "." else "") := by
  cases names using List.reverseRecOn with
  | nil =>
      cases slashes with
      | zero =>
          decide
      | succ fewer =>
          have shape :
              ofSegments (fewer + 1) [] = String.ofList (List.replicate fewer '/') ++ "/" ++ "" := by
            rw [ofSegments, if_neg (by simp), List.replicate_succ', String.ofList_append]
            rfl
          rw [shape, baseName_append_slash _ (by decide)]
          rfl
  | append_singleton names last =>
      have plain : '/' ∉ last.toList := (areSegments last (by simp)).2
      rw [List.getLastD_concat]
      rcases ofSegments_concat slashes names last with alone | ⟨directory, behind⟩
      · rw [alone, baseName_of_plain plain]
      · rw [behind, baseName_append_slash directory plain]

theorem rootSlashes_normalize
    (path : String) :
    rootSlashes (normalize path) = rootSlashes path := by
  change rootSlashes (ofSegments (rootSlashes path) (normalNames path)) = rootSlashes path
  cases rooted : isAbsolute path with
  | false =>
      rw [rootSlashes_eq_zero_iff.mpr rooted, rootSlashes_eq_zero_iff, ofSegments]
      split
      · decide
      · rw [List.replicate_zero, String.ofList_nil, String.empty_append]
        exact isAbsolute_intercalate fun _ member => isSegment_of_mem_normalNames member
  | true =>
      have atRoot : rootSlashes path ≠ 0 := by
        simp [rootSlashes_eq_zero_iff, rooted]
      exact rootSlashes_ofSegments atRoot (rootSlashes_le_two path)
        (descends_of_mem_normalNames rooted)

/-- A segment that leads down is appended to the normal form of a path that it is joined to. -/
theorem normalNames_join_of_descends
    (directory : String)
    {name : String}
    (descends : Descends name) :
    normalNames (join directory name) = normalNames directory ++ [name] := by
  have relative := descends.segment.isAbsolute_eq_false
  rw [normalNames, rootSlashes_join directory relative, segments_join relative,
    segments_of_isSegment descends.segment, normalSegments_append _ (by simpa using descends),
    normalNames]

end Path

namespace FilePath

/-- The file path of a normal form has the segments that are left of the path. -/
theorem ofText_normalize
    (path : String) :
    ofText (Path.normalize path) = ⟨Path.rootSlashes path, Path.normalNames path⟩ := by
  have names :
      (Path.segments (Path.normalize path)).filter (· ≠ ".") = Path.normalNames path := by
    change
      (Path.segments (Path.ofSegments (Path.rootSlashes path) (Path.normalNames path))).filter
        (· ≠ ".") = Path.normalNames path
    rw [Path.segments_ofSegments fun _ member => Path.isSegment_of_mem_normalNames member]
    split
    · rename_i noNames
      rw [List.isEmpty_iff.mp noNames.2]
      rfl
    · refine List.filter_eq_self.mpr fun name member => decide_eq_true ?_
      rintro rfl
      exact Path.here_not_mem_normalNames path member
  rw [ofText, names, Path.rootSlashes_normalize]

theorem text_ofText_normalize
    (path : String) :
    (ofText (Path.normalize path)).text = Path.normalize path := by
  rw [ofText_normalize]
  rfl

end FilePath

namespace Context

theorem descends_schemasDirectory :
    Path.Descends schemasDirectory :=
  ⟨⟨by decide, by decide⟩, by decide, by decide⟩

/-- The test of an output path asks for the last segment of its normal form. -/
theorem baseName_normalize_eq_schemasDirectory_iff
    (path : String) :
    Path.baseName (Path.normalize path) = schemasDirectory ↔
      (FilePath.ofText (Path.normalize path)).name = schemasDirectory := by
  have base :
      Path.baseName (Path.normalize path) =
        (Path.normalNames path).getLastD (if Path.rootSlashes path = 0 then "." else "") :=
    Path.baseName_ofSegments _ fun _ member => Path.isSegment_of_mem_normalNames member
  rw [base, FilePath.ofText_normalize, FilePath.name]
  cases Path.normalNames path using List.reverseRecOn with
  | nil =>
      have noBase : (if Path.rootSlashes path = 0 then "." else "") ≠ schemasDirectory := by
        split <;> decide
      have noName : ([] : List String).getLastD "" ≠ schemasDirectory := by
        decide
      exact iff_of_false noBase noName
  | append_singleton names last =>
      rw [List.getLastD_concat, List.getLastD_concat]

/-- The normal form of the schemas path: nothing is added to an output path that ends in the
directory, and one segment to any other. -/
theorem ofText_normalize_schemasPath
    (context : Context) :
    FilePath.ofText (Path.normalize context.schemasPath) =
      if (FilePath.ofText (Path.normalize context.outputPath)).name = schemasDirectory then
        FilePath.ofText (Path.normalize context.outputPath)
      else
        (FilePath.ofText (Path.normalize context.outputPath)).below ⟨0, [schemasDirectory]⟩ := by
  simp only [schemasPath, baseName_normalize_eq_schemasDirectory_iff]
  split
  · rfl
  · rw [FilePath.ofText_normalize, FilePath.ofText_normalize,
      Path.normalNames_join_of_descends _ descends_schemasDirectory,
      Path.rootSlashes_join _ (by decide)]
    rfl

theorem name_normalize_schemasPath
    (context : Context) :
    (FilePath.ofText (Path.normalize context.schemasPath)).name = schemasDirectory := by
  rw [ofText_normalize_schemasPath]
  split
  · assumption
  · exact List.getLastD_concat

/-- In its normal form, the schemas path ends in the directory of the modules.  Taken as an output
path it is its own schemas path, in any context.  It has the normal form of the output path if that
ends in the directory already, and the one with the directory behind it otherwise. -/
theorem schemasPath_appends_once
    (context : Context) :
    (FilePath.ofText (Path.normalize context.schemasPath)).name = schemasDirectory ∧
      (∀ other : Context,
        { other with outputPath := context.schemasPath }.schemasPath = context.schemasPath) ∧
      Path.normalize context.schemasPath =
        if (FilePath.ofText (Path.normalize context.outputPath)).name = schemasDirectory then
          Path.normalize context.outputPath
        else
          ((FilePath.ofText (Path.normalize context.outputPath)).below
            ⟨0, [schemasDirectory]⟩).text := by
  have ends := context.name_normalize_schemasPath
  refine ⟨ends, fun other => ?_, ?_⟩
  · rw [schemasPath, if_pos ((baseName_normalize_eq_schemasDirectory_iff _).mpr ends)]
  · rw [← FilePath.text_ofText_normalize context.schemasPath, ofText_normalize_schemasPath]
    split
    · exact FilePath.text_ofText_normalize _
    · rfl

/-- A directory of that name does not count where the output path leaves it again. -/
example :
    { Context.default with outputPath := "out/schemas/../" }.schemasPath =
      "out/schemas/../schemas" := by
  decide

end Context

end ZodSchemas
