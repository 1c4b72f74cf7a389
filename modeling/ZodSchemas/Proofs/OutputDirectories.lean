import ZodSchemas.Proofs.ExportRuns
import ZodSchemas.Proofs.NormalPaths

namespace ZodSchemas

/-!
# Output directories

An exporter resolves the path of its directory when it is made.  In a tree
without links that only depends on the path and on the directory that relative
paths are seen from, which no export changes, and comes to a path from the root
whose names all lead down.
-/

open FileTree

namespace FileTree

variable {tree : FileTree}

/-- Where a name leads from a place, whatever stands there. -/
def climbOrDescend (place : Place) (name : String) : Place :=
  if name = "." then place else if name = ".." then place.dropLast else place ++ [name]

/-- Without links the names of a path are resolved as they stand. -/
theorem resolveNames_of_plain
    (plain : tree.IsPlain)
    (links : Nat)
    (open_ : List Place)
    (directory : Place)
    (names : List String) :
    tree.resolveNames links open_ directory names =
      (names.foldl climbOrDescend directory, true) := by
  induction names generalizing directory with
  | nil =>
      rw [resolveNames]
      rfl
  | cons name names inductionHypothesis =>
      rw [resolveNames, List.foldl_cons, climbOrDescend]
      split
      · exact inductionHypothesis directory
      · split
        · exact inductionHypothesis directory.dropLast
        · dsimp only
          split
          · rename_i isLink
            exact absurd isLink (plain.noLink _ _)
          · exact inductionHypothesis (directory ++ [name])

theorem reach_ne_tooManyLinks
    (tree : FileTree)
    (start : Place)
    (names : List String) :
    tree.reach start names ≠ .error .tooManyLinks := by
  induction names generalizing start with
  | nil =>
      simp [reach]
  | cons name names inductionHypothesis =>
      rw [reach]
      split
      · exact inductionHypothesis _
      · simp
      · simp
      · rename_i refusal isError
        unfold stepTo at isError
        split at isError
        · contradiction
        · split at isError
          · cases isError
            simp
          · contradiction

/-- Without links no path leads through too many of them. -/
theorem locate_ne_tooManyLinks
    (plain : tree.IsPlain)
    {path : FilePath}
    (rooted : path.IsRooted)
    (text : String) :
    tree.locate .target path ≠ .error (.refused .tooManyLinks text) := by
  cases faulty : path.fault? with
  | some fault =>
      rw [tree.locate_of_fault faulty]
      rintro ⟨⟩
      rcases FilePath.fault?_cases faulty with same | same | same <;> cases same
  | none =>
      cases reached : tree.reach [] path.names with
      | ok place =>
          rw [locate_of_reach_all plain rooted faulty reached]
          simp
      | error refusal =>
          rcases locate_of_reach_error plain rooted faulty reached .target with
            isRefused | ⟨-, place, isLocated⟩ | ⟨-, place, entry, isLocated, -⟩
          · rw [isRefused]
            rintro ⟨⟩
            exact tree.reach_ne_tooManyLinks [] path.names reached
          all_goals
            rw [isLocated]
            simp

/-- The path from the root that a path is resolved to where no link stands, seen from a working
directory. -/
def resolved (workingDirectory : Place) (path : FilePath) : Except FileFault FilePath :=
  match nameFault? path.names with
  | some fault => .error fault
  | none =>
      .ok (.fromRoot (Path.normalSegments true
        (path.names.foldl climbOrDescend (if path.isAbsolute then [] else workingDirectory))))

theorem mem_climbOrDescend
    {place : Place}
    {names : List String}
    {name : String}
    (member : name ∈ names.foldl climbOrDescend place) :
    name ∈ place ∨ name ∈ names := by
  induction names generalizing place with
  | nil =>
      exact .inl member
  | cons first names inductionHypothesis =>
      rcases inductionHypothesis member with inPlace | later
      · unfold climbOrDescend at inPlace
        split at inPlace
        · exact .inl inPlace
        · split at inPlace
          · exact .inl (List.dropLast_subset _ inPlace)
          · rcases List.mem_append.mp inPlace with earlier | isFirst
            · exact .inl earlier
            · exact .inr (List.mem_singleton.mp isFirst ▸ .head _)
      · exact .inr (.tail _ later)

/-- Names that can stand in a path, and are texts. -/
def AreNames (names : List String) : Prop :=
  ∀ name ∈ names, Path.IsSegment name ∧ Text.IsText name

theorem areNames_ofText
    {text : String}
    (isText : Text.IsText text) :
    AreNames (FilePath.ofText text).names := fun name member => by
  have isSegment := (List.mem_filter.mp member).1
  exact ⟨Path.isSegment_of_mem_segments isSegment, isText.of_mem_segments isSegment⟩

/-- What a path is resolved to leads down from the root. -/
theorem descends_of_resolved
    {workingDirectory : Place}
    (seen : AreNames workingDirectory)
    {path : FilePath}
    (areNames : AreNames path.names)
    {result : FilePath}
    (isResult : resolved workingDirectory path = .ok result) :
    ∃ place : Place, result = .fromRoot place ∧
      ∀ name ∈ place, Path.Descends name ∧ Text.IsText name := by
  unfold resolved at isResult
  split at isResult
  · contradiction
  · cases isResult
    have areNamesToo : AreNames (path.names.foldl climbOrDescend
        (if path.isAbsolute then [] else workingDirectory)) := by
      intro name member
      rcases mem_climbOrDescend member with inStart | inPath
      · split at inStart
        · contradiction
        · exact seen name inStart
      · exact areNames name inPath
    obtain ⟨climbs, downs, descend, shape, noClimb⟩ :=
      Path.exists_climbs_downs true fun name member => (areNamesToo name member).1
    refine ⟨_, rfl, fun name member =>
      ⟨?_, (areNamesToo name (Path.mem_of_mem_normalSegments member)).2⟩⟩
    rw [shape, noClimb rfl] at member
    exact descend name (by simpa using member)

/-- Without links a path is resolved without regard to what stands where. -/
theorem resolve_of_plain
    (plain : tree.IsPlain)
    (seen : AreNames tree.workingDirectory)
    {path : FilePath}
    (areNames : AreNames path.names) :
    tree.resolve path = resolved tree.workingDirectory path := by
  cases noFault : nameFault? path.names with
  | some fault =>
      simp only [resolve, resolved, noFault]
  | none =>
      have isResult : resolved tree.workingDirectory path =
          .ok (.fromRoot (Path.normalSegments true (path.names.foldl climbOrDescend
            (if path.isAbsolute then [] else tree.workingDirectory)))) := by
        simp only [resolved, noFault]
      obtain ⟨place, isPlace, descends⟩ := descends_of_resolved seen areNames isResult
      have rooted : (FilePath.fromRoot place).IsRooted :=
        FilePath.isRooted_of_descends descends
      rw [isResult, isPlace]
      simp only [resolve, noFault, resolveNames_of_plain plain, startOf, isPlace]
      split
      · rename_i text isError
        exact absurd isError (locate_ne_tooManyLinks plain rooted text)
      · rfl

end FileTree

namespace Change

/-- A change that leaves the directory alone that relative paths are seen from. -/
def KeepsWorkingDirectory (change : Change α) : Prop :=
  ∀ tree : FileTree, (change.inTree tree).2.workingDirectory = tree.workingDirectory

namespace KeepsWorkingDirectory

theorem pure
    (value : α) :
    KeepsWorkingDirectory (Pure.pure value : Change α) :=
  fun _ => rfl

theorem throw
    (fault : FileFault) :
    KeepsWorkingDirectory (MonadExcept.throw fault : Change α) :=
  fun _ => rfl

theorem ask
    (question : FileTree → Except FileFault α) :
    KeepsWorkingDirectory (Change.ask question) :=
  fun _ => by rw [inTree_ask]

theorem put
    (place : Place)
    (entry : FileEntry) :
    KeepsWorkingDirectory (Change.put place entry) :=
  fun _ => rfl

theorem bind
    {change : Change α}
    {next : α → Change β}
    (keeps : KeepsWorkingDirectory change)
    (keepsToo : ∀ value, KeepsWorkingDirectory (next value)) :
    KeepsWorkingDirectory (change >>= next) := by
  intro tree
  rw [inTree_bind]
  have first := keeps tree
  rcases found : change.inTree tree with ⟨fault | value, left⟩ <;> rw [found] at first
  · exact first
  · exact (keepsToo value left).trans first

theorem attempt
    {change : Change α}
    (keeps : KeepsWorkingDirectory change) :
    KeepsWorkingDirectory (Change.attempt change) := by
  intro tree
  rw [inTree_attempt]
  exact keeps tree

theorem get :
    KeepsWorkingDirectory (MonadState.get : Change FileTree) :=
  fun _ => rfl

theorem foldlM
    {step : β → α → Change β}
    (keeps : ∀ start value, KeepsWorkingDirectory (step start value))
    (values : List α)
    (start : β) :
    KeepsWorkingDirectory (values.foldlM step start) := by
  induction values generalizing start with
  | nil =>
      exact .pure start
  | cons value values inductionHypothesis =>
      rw [List.foldlM_cons]
      exact (keeps start value).bind inductionHypothesis

theorem mapM
    {step : α → Change β}
    (keeps : ∀ value, KeepsWorkingDirectory (step value))
    (values : List α) :
    KeepsWorkingDirectory (values.mapM step) := by
  induction values with
  | nil =>
      exact .pure []
  | cons value values inductionHypothesis =>
      rw [List.mapM_cons]
      exact (keeps value).bind fun _ => inductionHypothesis.bind fun _ => .pure _

end KeepsWorkingDirectory

theorem keepsWorkingDirectory_makeDirectory
    (path : FilePath) :
    KeepsWorkingDirectory (makeDirectory path) :=
  (KeepsWorkingDirectory.ask _).bind fun located => by
    split
    · exact .put _ _
    · exact .throw _

theorem keepsWorkingDirectory_acceptDirectory
    (path : FilePath)
    (fault : FileFault) :
    KeepsWorkingDirectory (acceptDirectory path fault) := by
  unfold acceptDirectory
  split
  · refine (KeepsWorkingDirectory.ask _).bind fun isThere => ?_
    split
    · exact .pure ()
    · exact .throw fault
  · exact .throw fault

theorem keepsWorkingDirectory_makeDirectory_or
    (path : FilePath)
    {onFault : FileFault → Change Unit}
    (keeps : ∀ fault, KeepsWorkingDirectory (onFault fault)) :
    KeepsWorkingDirectory
      (attempt (makeDirectory path) >>= fun result =>
        match result with
        | .ok _ => pure ()
        | .error fault => onFault fault) := by
  refine (keepsWorkingDirectory_makeDirectory path).attempt.bind fun result => ?_
  cases result with
  | ok made =>
      exact .pure ()
  | error fault =>
      exact keeps fault

theorem keepsWorkingDirectory_settle
    (path : FilePath)
    (fault : FileFault) :
    KeepsWorkingDirectory (settle path fault) := by
  unfold settle
  split
  · exact .throw fault
  · exact keepsWorkingDirectory_acceptDirectory path fault

theorem keepsWorkingDirectory_makeDirectoriesTo
    (slashes : Nat)
    (names : List String) :
    KeepsWorkingDirectory (makeDirectoriesTo slashes names) := by
  induction names with
  | nil =>
      rw [makeDirectoriesTo_nil]
      exact keepsWorkingDirectory_makeDirectory_or _ (keepsWorkingDirectory_settle _)
  | cons name outer inductionHypothesis =>
      rw [makeDirectoriesTo_cons]
      refine keepsWorkingDirectory_makeDirectory_or _ fun fault => ?_
      split
      · exact inductionHypothesis.bind fun _ =>
          keepsWorkingDirectory_makeDirectory_or _ (keepsWorkingDirectory_settle _)
      · exact keepsWorkingDirectory_acceptDirectory _ fault

theorem keepsWorkingDirectory_writeInPlace
    (path : FilePath)
    (bytes : List UInt8) :
    KeepsWorkingDirectory (writeInPlace path bytes) :=
  (KeepsWorkingDirectory.ask _).bind fun located => by
    split
    · exact .throw _
    all_goals exact .put _ _

theorem keepsWorkingDirectory_replaceFile
    (path : FilePath)
    (bytes : List UInt8) :
    KeepsWorkingDirectory (replaceFile path bytes) :=
  KeepsWorkingDirectory.get.bind fun tree => by
    split
    · exact .put _ _
    · exact keepsWorkingDirectory_writeInPlace path bytes

theorem keepsWorkingDirectory_removeEntry
    (path : FilePath)
    (directory : Place)
    (name : String) :
    KeepsWorkingDirectory (removeEntry path directory name) :=
  fun tree => by
    rw [inTree_removeEntry]
    split
    · rfl
    · split
      · rfl
      · split <;> rfl

theorem keepsWorkingDirectory_cleanDirectory
    (path : FilePath) :
    KeepsWorkingDirectory (cleanDirectory path) := by
  refine (KeepsWorkingDirectory.ask _).bind fun isThere => ?_
  split
  · exact .pure []
  · refine (KeepsWorkingDirectory.ask _).bind fun place => ?_
    refine KeepsWorkingDirectory.get.bind fun tree => ?_
    have removes (name : String) := keepsWorkingDirectory_removeEntry path place name
    exact (KeepsWorkingDirectory.mapM removes _).bind fun _ => .pure _

end Change

namespace Export.Exporter

open Change

theorem keepsWorkingDirectory_writeFile
    (exporter : Exporter)
    (file : RenderedFile) :
    KeepsWorkingDirectory (exporter.writeFile file) := by
  rw [writeFile_eq]
  refine (keepsWorkingDirectory_makeDirectoriesTo _ _).bind fun _ => ?_
  split
  · refine KeepsWorkingDirectory.bind ?_ fun _ => .pure _
    split
    · exact keepsWorkingDirectory_replaceFile _ _
    · exact keepsWorkingDirectory_writeInPlace _ _
  · exact .throw _

theorem keepsWorkingDirectory_recover
    (fault : FileFault)
    (exporter : Exporter) :
    KeepsWorkingDirectory (recover fault exporter) := by
  unfold recover
  split
  · exact .pure exporter
  · exact .throw fault

theorem keepsWorkingDirectory_addFile
    (exporter : Exporter)
    (file : RenderedFile) :
    KeepsWorkingDirectory (exporter.addFile file) :=
  (keepsWorkingDirectory_writeFile exporter file).attempt.bind fun result => by
    cases result with
    | ok record =>
        exact .pure _
    | error fault =>
        exact keepsWorkingDirectory_recover fault _

theorem keepsWorkingDirectory_writeAll
    (exporter : Exporter)
    (files : List RenderedFile) :
    KeepsWorkingDirectory (exporter.writeAll files) := by
  refine (KeepsWorkingDirectory.foldlM keepsWorkingDirectory_addFile files exporter).bind
    fun written => ?_
  split
  · refine (keepsWorkingDirectory_writeFile written _).attempt.bind fun result => ?_
    cases result with
    | ok record =>
        exact .pure _
    | error fault =>
        exact keepsWorkingDirectory_recover fault _
  · exact .pure written

/-- An export changes nothing about how relative paths are seen. -/
theorem keepsWorkingDirectory_run
    (exporter : Exporter)
    (files : List RenderedFile) :
    KeepsWorkingDirectory (exporter.run files) := by
  have prepares : KeepsWorkingDirectory exporter.prepare := by
    intro tree
    rw [inTree_prepare]
    split
    · exact keepsWorkingDirectory_cleanDirectory _ tree
    · rfl
  refine prepares.attempt.bind fun result => ?_
  cases result with
  | error fault =>
      exact keepsWorkingDirectory_recover fault _
  | ok reports =>
      refine (keepsWorkingDirectory_makeDirectoriesTo _ _).attempt.bind fun made => ?_
      cases made with
      | error fault =>
          exact keepsWorkingDirectory_recover fault _
      | ok _ =>
          exact keepsWorkingDirectory_writeAll _ files

end Export.Exporter

namespace Export

open Change

variable {tree : FileTree}

theorem inTree_exporterAt
    (path : FilePath)
    (options : ExportOptions)
    (time : String) :
    (exporterAt path options time).inTree tree =
      ((tree.resolve path).map fun directory => .start directory options time, tree) := by
  rw [exporterAt, inTree_bind, inTree_ask]
  cases tree.resolve path <;> rfl

/-- An export with an exporter of its own. -/
def exportTo (path : FilePath) (options : ExportOptions) (time : String)
    (files : List RenderedFile) : Change Exporter := do
  (← exporterAt path options time).run files

theorem inTree_exportTo
    (path : FilePath)
    (options : ExportOptions)
    (time : String)
    (files : List RenderedFile) :
    (exportTo path options time files).inTree tree =
      match tree.resolve path with
      | .ok directory => ((Exporter.start directory options time).run files).inTree tree
      | .error fault => (.error fault, tree) := by
  rw [exportTo, inTree_bind, inTree_exporterAt]
  cases tree.resolve path <;> rfl

end Export

end ZodSchemas
