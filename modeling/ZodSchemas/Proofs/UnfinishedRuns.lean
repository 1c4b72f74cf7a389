import ZodSchemas.Proofs.ExportRecords
import ZodSchemas.Proofs.InputReading
import ZodSchemas.Proofs.OutputDirectories
import ZodSchemas.Proofs.TaskRuns

namespace ZodSchemas

/-!
# Runs that do not reach the export

A run ends before its export if its input cannot be read, if the checks refuse the
document, if an operation names an unknown model, or if it is a dry one.  Until
the export it only reads the file tree.  A run that succeeds has a record of each
file that it has rendered.

An unknown model is noticed only after the directory of the schemas has been
resolved.  Where that is impossible, the run ends without a report.
-/

open Data Metadata

namespace Generation

namespace Run

/-- What a run yields in a tree, and the tree it leaves. -/
def inTree (run : Run α) (tree : FileTree) : Except RunFault α × FileTree :=
  run.run.run tree

/-- A run goes on in the tree that its first part leaves, unless that fails. -/
theorem inTree_bind
    (run : Run α)
    (next : α → Run β)
    (tree : FileTree) :
    (run >>= next).inTree tree =
      match run.inTree tree with
      | (.ok value, left) => (next value).inTree left
      | (.error fault, left) => (.error fault, left) := by
  unfold inTree
  rw [run_bind_eq]
  rcases run.run.run tree with ⟨_ | _, left⟩ <;> rfl

theorem inTree_change
    (change : Change α)
    (tree : FileTree) :
    (Run.change change).inTree tree =
      ((change.inTree tree).1.mapError .file, (change.inTree tree).2) := by
  change (Except.mapError RunFault.file <$> change.run : StateM FileTree _).run tree = _
  rfl

/-- A run that leaves every tree as it is. -/
def OnlyReads (run : Run α) : Prop :=
  ∀ tree, (run.inTree tree).2 = tree

namespace OnlyReads

theorem pure
    (value : α) :
    OnlyReads (Pure.pure value : Run α) :=
  fun _ => rfl

theorem throw
    (fault : RunFault) :
    OnlyReads (MonadExcept.throw fault : Run α) :=
  fun _ => rfl

theorem get :
    OnlyReads (MonadState.get : Run FileTree) :=
  fun _ => rfl

theorem ask
    (question : FileTree → Except FileFault α) :
    OnlyReads (Run.change (Change.ask question)) := by
  intro tree
  rw [inTree_change, Change.inTree_ask]

theorem ofExcept
    (fault : ε → RunFault)
    (result : Except ε α) :
    OnlyReads (Run.ofExcept fault result) := by
  cases result with
  | ok value =>
      exact .pure value
  | error error =>
      exact .throw (fault error)

theorem bind
    {run : Run α}
    {next : α → Run β}
    (reads : OnlyReads run)
    (readsToo : ∀ value, OnlyReads (next value)) :
    OnlyReads (run >>= next) := by
  intro tree
  rw [inTree_bind]
  have first := reads tree
  rcases found : run.inTree tree with ⟨fault | value, left⟩ <;> rw [found] at first
  · exact first
  · exact (readsToo value left).trans first

end OnlyReads

end Run

open Run

/-! Dry runs -/

theorem onlyReads_renderUnits
    (context : Context)
    (units : List SchemaUnit) :
    OnlyReads (renderUnits context units) := by
  refine OnlyReads.get.bind fun tree => (OnlyReads.ofExcept _ _).bind fun files => ?_
  split
  · exact .pure files
  · exact .throw _

theorem exportFiles_of_dry
    {options : RunOptions}
    (dry : options.isDryRun = true)
    (time : String)
    (parsed : Source.Parsed)
    (directory : FilePath)
    (files : List RenderedFile)
    (report : Report) :
    exportFiles options time parsed directory files report = pure report :=
  if_pos dry

theorem onlyReads_produce_of_dry
    {options : RunOptions}
    (dry : options.isDryRun = true)
    (time : String)
    (parsed : Source.Parsed)
    (report : Report) :
    OnlyReads (produce options time parsed report) := by
  refine (OnlyReads.ask _).bind fun directory => ?_
  dsimp only
  split
  · exact .pure _
  · refine (onlyReads_renderUnits _ _).bind fun files => ?_
    rw [exportFiles_of_dry dry]
    exact .pure _

theorem onlyReads_generate_of_dry
    {options : RunOptions}
    (dry : options.isDryRun = true)
    (time : String)
    (parsed : Source.Parsed)
    (report : Report) :
    OnlyReads (generate options time parsed report) := by
  unfold generate
  dsimp only
  split
  · exact .pure _
  · exact (onlyReads_produce_of_dry dry time parsed _).bind fun _ => .pure _

/-! Runs that end with a failing report -/

/-- A report with nothing rendered and nothing exported. -/
structure Report.IsBare (report : Report) : Prop where
  noFiles : report.renderedFiles = []
  noManifest : report.manifest = none

/-- A report of a run that has failed with nothing rendered and nothing exported. -/
structure Report.IsBarren (report : Report) : Prop extends report.IsBare where
  failed : report.succeeded = false

/-- A run that ends with such a report, and leaves the tree as it was. -/
def StopsIn (tree : FileTree) (outcome : Except RunFault Report × FileTree) : Prop :=
  ∃ report : Report, outcome = (.ok report, tree) ∧ report.IsBarren

/-- The checks of a document refuse it if it is strictly checked and has an error, or has a warning
and those count. -/
def IsRefused (options : RunOptions) (parsed : Source.Parsed) : Prop :=
  options.isStrict = true ∧
    ((Check.full parsed.settings parsed.document).errors ≠ [] ∨
      options.failsOnWarnings = true ∧
        (Check.full parsed.settings parsed.document).warnings ≠ [])

/-- The plan for a document. -/
def planOf (parsed : Source.Parsed) : List Assembly.Task :=
  Assembly.plan (.build parsed.settings parsed.document) parsed.document

/-- An operation of the plan names an unknown model. -/
def PlansUnknownModel (parsed : Source.Parsed) : Prop :=
  ∃ task ∈ planOf parsed, ∃ model, task.outcome = .error (.unknownModel model)

theorem not_passes_iff
    {options : RunOptions}
    {findings : Check.Findings} :
    passes options findings = false ↔
      findings.errors ≠ [] ∨ options.failsOnWarnings = true ∧ findings.warnings ≠ [] := by
  have filtered (level : Check.Level) :
      findings.any (·.level == level) = true ↔ findings.ofLevel level ≠ [] := by
    rw [Check.Findings.ofLevel, ne_eq, List.filter_eq_nil_iff, List.any_eq_true]
    push Not
    rfl
  have noErrors := filtered .error
  have noWarnings := filtered .warning
  rw [← Check.Findings.hasErrors] at noErrors
  rw [← Check.Findings.hasWarnings] at noWarnings
  rw [Check.Findings.errors, Check.Findings.warnings, ← noErrors, ← noWarnings, passes]
  cases findings.hasErrors <;> cases options.failsOnWarnings <;> cases findings.hasWarnings <;> simp

theorem isRefused_iff
    {options : RunOptions}
    {parsed : Source.Parsed} :
    IsRefused options parsed ↔
      (options.isStrict &&
        !passes options (Check.full parsed.settings parsed.document)) = true := by
  rw [IsRefused, Bool.and_eq_true, Bool.not_eq_true', not_passes_iff]

namespace Report

variable {options : RunOptions} {report : Report}

theorem hasErrors_eq_false_iff :
    report.hasErrors = false ↔
      report.validationErrors = [] ∧ report.generationErrors = [] ∧ report.exportErrors = [] := by
  simp [hasErrors, and_assoc]

/-- A run has succeeded if its report has no errors, and no warnings where those count. -/
theorem succeeded_finish_iff :
    (report.finish options).succeeded = true ↔
      report.hasErrors = false ∧
        (options.failsOnWarnings = true → report.validationWarnings = []) := by
  unfold finish
  cases report.hasErrors <;> cases options.failsOnWarnings <;> simp

theorem IsBare.finish_of_not_succeeded
    (bare : report.IsBare)
    (failed : ¬ (report.finish options).succeeded = true) :
    (report.finish options).IsBarren :=
  ⟨⟨bare.noFiles, bare.noManifest⟩, Bool.eq_false_iff.mpr failed⟩

theorem isBare_empty
    (isDryRun : Bool) :
    (empty isDryRun).IsBare :=
  ⟨rfl, rfl⟩

theorem IsBare.noteLoad
    (bare : report.IsBare)
    (document : Document)
    (path : FilePath) :
    (report.noteLoad document path).IsBare :=
  ⟨bare.noFiles, bare.noManifest⟩

theorem IsBare.noteFindings
    (bare : report.IsBare)
    (findings : Check.Findings) :
    (report.noteFindings findings).IsBare :=
  ⟨bare.noFiles, bare.noManifest⟩

/-- A report about findings that do not let a run go on is that of a run that has failed. -/
theorem not_succeeded_of_not_passes
    {findings : Check.Findings}
    (refused : passes options findings = false) :
    ¬ ((report.noteFindings findings).finish options).succeeded = true := by
  rw [succeeded_finish_iff, hasErrors_eq_false_iff]
  rintro ⟨⟨noErrors, -, -⟩, noWarnings⟩
  rcases not_passes_iff.mp refused with isError | ⟨warningsCount, isWarning⟩
  · exact isError (List.map_eq_nil_iff.mp (List.append_eq_nil_iff.mp noErrors).2)
  · have none := noWarnings warningsCount
    exact isWarning (List.map_eq_nil_iff.mp (List.append_eq_nil_iff.mp none).2)

end Report

variable {options : RunOptions} {parsed : Source.Parsed} {report : Report} {tree : FileTree}

/-- A refused document ends its run at the checks. -/
theorem stopsIn_generate_of_refused
    (refused : IsRefused options parsed)
    (time : String)
    (bare : report.IsBare) :
    StopsIn tree ((generate options time parsed report).inTree tree) := by
  have stops := isRefused_iff.mp refused
  have notPassing : passes options (Check.full parsed.settings parsed.document) = false :=
    not_passes_iff.mpr refused.2
  refine ⟨_, ?_, (bare.noteFindings _).finish_of_not_succeeded
    (Report.not_succeeded_of_not_passes notPassing)⟩
  unfold generate
  dsimp only
  rw [if_pos stops]
  rfl

theorem generate_of_not_refused
    (heeded : ¬ IsRefused options parsed)
    (time : String)
    (report : Report) :
    generate options time parsed report =
      produce options time parsed
          (report.noteFindings (Check.full parsed.settings parsed.document)) >>= fun produced =>
        pure (produced.finish options) := by
  unfold generate
  dsimp only
  rw [if_neg (mt isRefused_iff.mpr heeded)]

/-! Unknown models -/

theorem plansUnknownModel_iff :
    PlansUnknownModel parsed ↔
      ∃ model, (planOf parsed).findSome? Assembly.Task.unknownModel? = some model := by
  constructor
  · rintro ⟨task, planned, model, unknown⟩
    have named : task.unknownModel? = some model := by
      rw [Assembly.Task.unknownModel?, unknown]
    rw [← Option.isSome_iff_exists, List.isSome_findSome?, List.any_eq_true]
    exact ⟨task, planned, Option.isSome_of_eq_some named⟩
  · rintro ⟨model, found⟩
    obtain ⟨task, planned, named⟩ := List.exists_of_findSome?_eq_some found
    refine ⟨task, planned, model, ?_⟩
    unfold Assembly.Task.unknownModel? at named
    split at named
    · next unknown =>
        cases named
        exact unknown
    · cases named

theorem exists_assemble_of_plansUnknownModel
    (unknown : PlansUnknownModel parsed) :
    ∃ model, Assembly.assemble (planOf parsed) = .error model := by
  obtain ⟨model, found⟩ := plansUnknownModel_iff.mp unknown
  exact ⟨model, by rw [Assembly.assemble_eq, found]⟩

/-- The path of the directory of the schemas. -/
def schemasPath (parsed : Source.Parsed) : FilePath :=
  .ofText (Context.build parsed.settings parsed.document).schemasPath

/-- What is reported about an unknown model. -/
def unknownModelReport (parsed : Source.Parsed) (directory : FilePath) (model : String)
    (report : Report) : Report :=
  (Report.noteUnknownModel model { report with outputDirectory := directory.text }).noteAssembly 0
    (planOf parsed).length parsed.settings.workers false

/-- An unknown model ends a run once the directory of the schemas is known. -/
theorem inTree_produce_of_unknownModel
    {model : String}
    (unknown : Assembly.assemble (planOf parsed) = .error model)
    (time : String)
    (report : Report) :
    (produce options time parsed report).inTree tree =
      match tree.resolve (schemasPath parsed) with
      | .ok directory => (.ok (unknownModelReport parsed directory model report), tree)
      | .error fault => (.error (.file fault), tree) := by
  rw [planOf] at unknown
  unfold produce
  dsimp only
  rw [inTree_bind, inTree_change, Change.inTree_ask, ← schemasPath, unknown]
  cases tree.resolve (schemasPath parsed) <;> rfl

theorem Report.IsBare.unknownModelReport
    (bare : report.IsBare)
    (parsed : Source.Parsed)
    (directory : FilePath)
    (model : String) :
    (unknownModelReport parsed directory model report).IsBare :=
  ⟨bare.noFiles, bare.noManifest⟩

theorem not_succeeded_unknownModelReport
    (options : RunOptions)
    (report : Report)
    (parsed : Source.Parsed)
    (directory : FilePath)
    (model : String) :
    ¬ ((unknownModelReport parsed directory model report).finish options).succeeded = true := by
  rw [Report.succeeded_finish_iff, Report.hasErrors_eq_false_iff]
  rintro ⟨⟨-, noErrors, -⟩, -⟩
  exact List.concat_ne_nil _ _ noErrors

/-- An unknown model ends a run with a report, if the directory of the schemas can be resolved. -/
theorem stopsIn_generate_of_unknownModel
    (heeded : ¬ IsRefused options parsed)
    (unknown : PlansUnknownModel parsed)
    {directory : FilePath}
    (resolves : tree.resolve (schemasPath parsed) = .ok directory)
    (time : String)
    (bare : report.IsBare) :
    StopsIn tree ((generate options time parsed report).inTree tree) := by
  obtain ⟨model, isError⟩ := exists_assemble_of_plansUnknownModel unknown
  have stillBare :=
    (bare.noteFindings (Check.full parsed.settings parsed.document)).unknownModelReport parsed
      directory model
  refine ⟨_, ?_, stillBare.finish_of_not_succeeded
    (not_succeeded_unknownModelReport options _ parsed directory model)⟩
  rw [generate_of_not_refused heeded, inTree_bind, inTree_produce_of_unknownModel isError, resolves]
  rfl

/-- Where the directory cannot be resolved, an unknown model is not reported. -/
theorem inTree_generate_of_unresolved
    (heeded : ¬ IsRefused options parsed)
    (unknown : PlansUnknownModel parsed)
    {fault : FileFault}
    (unresolved : tree.resolve (schemasPath parsed) = .error fault)
    (time : String)
    (report : Report) :
    (generate options time parsed report).inTree tree = (.error (.file fault), tree) := by
  obtain ⟨model, isError⟩ := exists_assemble_of_plansUnknownModel unknown
  rw [generate_of_not_refused heeded, inTree_bind, inTree_produce_of_unknownModel isError,
    unresolved]

/-! Successful runs -/

/-- A report of an export that has a record of each rendered file, in their order. -/
def Report.IsRecorded (report : Report) : Prop :=
  ∃ manifest directory, report.manifest = some manifest ∧
    manifest.directory = FilePath.text directory ∧
    manifest.records = report.renderedFiles.map (Export.recordIn directory)

theorem Report.isRecorded_noteExport
    {directory : FilePath}
    {files : List RenderedFile}
    {exporter : Export.Exporter}
    (accounts : exporter.Accounts directory files)
    (isRendered : report.renderedFiles = files)
    (noErrors : (report.noteExport exporter).hasErrors = false) :
    (report.noteExport exporter).IsRecorded := by
  obtain ⟨-, -, noExportErrors⟩ := hasErrors_eq_false_iff.mp noErrors
  have recorded := accounts.records (List.append_eq_nil_iff.mp noExportErrors).2
  refine ⟨exporter.manifest, directory, rfl, congrArg FilePath.text accounts.below, ?_⟩
  rw [← isRendered] at recorded
  exact recorded

theorem yields_change
    {holds : α → Prop}
    {change : Change α}
    (yields : Yields holds change) :
    Yields holds (Run.change change) := by
  intro tree value left isLeft
  change (Run.change change).inTree tree = _ at isLeft
  rw [inTree_change] at isLeft
  rcases found : change.inTree tree with ⟨fault | other, after⟩ <;> rw [found] at isLeft
  · cases isLeft
  · cases isLeft
    exact yields tree value after found

/-- An export leaves a report without errors only if it has a record of each file. -/
theorem yields_exportFiles
    (written : options.isDryRun = false)
    (time : String)
    (parsed : Source.Parsed)
    (path : FilePath)
    (files : List RenderedFile)
    (isRendered : report.renderedFiles = files) :
    Yields (fun report => report.hasErrors = false → report.IsRecorded)
      (exportFiles options time parsed path files report) := by
  have starts :
      Yields (fun exporter => ∃ directory, exporter.Accounts directory [])
        (Export.exporterAt path (exportOptions parsed.settings) time) :=
    (Yields.any _).bind fun directory _ =>
      .pure ⟨directory, Export.Exporter.accounts_start directory _ time⟩
  unfold exportFiles
  rw [written]
  refine (yields_change starts).bind fun exporter accounts => ?_
  obtain ⟨directory, atStart⟩ := accounts
  exact (yields_change (Export.Exporter.yields_run atStart files)).bind fun exporter atEnd =>
    .pure (Report.isRecorded_noteExport atEnd isRendered)

/-- What a run produces has errors, or a record of each rendered file. -/
theorem yields_produce
    (written : options.isDryRun = false)
    (time : String)
    (parsed : Source.Parsed)
    (report : Report) :
    Yields (fun report => report.hasErrors = false → report.IsRecorded)
      (produce options time parsed report) := by
  unfold produce
  refine (Yields.any _).bind fun directory _ => ?_
  dsimp only
  split
  · refine .pure fun noErrors => ?_
    obtain ⟨-, noGenerationErrors, -⟩ := Report.hasErrors_eq_false_iff.mp noErrors
    exact absurd noGenerationErrors (List.concat_ne_nil _ _)
  · refine (Yields.any _).bind fun files _ => ?_
    exact yields_exportFiles written time parsed _ files rfl

/-- A run that succeeds has a record of each rendered file. -/
theorem yields_generate
    (written : options.isDryRun = false)
    (time : String)
    (parsed : Source.Parsed)
    (report : Report) :
    Yields (fun report => report.succeeded = true → report.IsRecorded)
      (generate options time parsed report) := by
  by_cases refused : IsRefused options parsed
  · have stops := isRefused_iff.mp refused
    unfold generate
    dsimp only
    rw [if_pos stops]
    exact .pure fun succeeded =>
      absurd succeeded (Report.not_succeeded_of_not_passes (not_passes_iff.mpr refused.2))
  · rw [generate_of_not_refused refused]
    exact (yields_produce written time parsed _).bind fun produced recorded =>
      .pure fun succeeded => recorded (Report.succeeded_finish_iff.mp succeeded).1

/-! Input -/

/-- What is reported about an input that cannot be read. -/
def unreadReport (options : RunOptions) (fault : Source.InputFault) : Report :=
  ((Report.empty options.isDryRun).noteLoadFailure fault.message).finish options

theorem isBarren_unreadReport
    (options : RunOptions)
    (fault : Source.InputFault) :
    (unreadReport options fault).IsBarren := by
  have bare : ((Report.empty options.isDryRun).noteLoadFailure fault.message).IsBare :=
    ⟨rfl, rfl⟩
  apply bare.finish_of_not_succeeded
  rw [Report.succeeded_finish_iff, Report.hasErrors_eq_false_iff]
  rintro ⟨⟨-, noErrors, -⟩, -⟩
  exact List.concat_ne_nil _ _ noErrors

theorem inTree_generateFrom
    (options : RunOptions)
    (time : String)
    (overrides : Overrides)
    (path : FilePath)
    (tree : FileTree) :
    (generateFrom options time overrides path).inTree tree =
      match Source.readInput tree path (overridden overrides) with
      | .ok parsed =>
          (generate options time parsed
            ((Report.empty options.isDryRun).noteLoad parsed.document path)).inTree tree
      | .error fault =>
          if fault.isReported then (.ok (unreadReport options fault), tree)
          else (.error (.input fault), tree) := by
  unfold generateFrom inTree
  dsimp only
  rw [run_get_bind]
  cases Source.readInput tree path (overridden overrides) with
  | ok parsed =>
      rfl
  | error fault =>
      dsimp only
      split <;> rfl

/-! What is asked of a run -/

/-- A run that does not reach the export leaves the tree as it was, and fails with a bare report
unless it is a dry one; a run that succeeds has a record of each rendered file. -/
structure IsTraceless (options : RunOptions)
    (reading : Except Source.InputFault Source.Parsed)
    (tree : FileTree)
    (outcome : Except RunFault Report × FileTree) : Prop where
  unread : ∀ fault, reading = .error fault → fault.isReported = true → StopsIn tree outcome
  refused : ∀ parsed, reading = .ok parsed → IsRefused options parsed → StopsIn tree outcome
  unknown : ∀ parsed, reading = .ok parsed → PlansUnknownModel parsed → StopsIn tree outcome
  dry : options.isDryRun = true → outcome.2 = tree
  recorded :
    options.isDryRun = false →
      ∀ report, outcome.1 = .ok report → report.succeeded = true → report.IsRecorded

/-- Where a run gets as far as to an unknown model, the directory of the schemas can be resolved. -/
def IsResolved (options : RunOptions)
    (reading : Except Source.InputFault Source.Parsed)
    (tree : FileTree) :
    Prop :=
  ∀ parsed, reading = .ok parsed → PlansUnknownModel parsed → ¬ IsRefused options parsed →
    ∃ directory, tree.resolve (schemasPath parsed) = .ok directory

/-- A run does what is asked of it exactly if the directory can be resolved where it has to be;
otherwise it ends without a report, and leaves the tree as it was all the same. -/
structure IsTracelessIfResolved (options : RunOptions)
    (reading : Except Source.InputFault Source.Parsed)
    (tree : FileTree)
    (outcome : Except RunFault Report × FileTree) : Prop where
  exactly : IsTraceless options reading tree outcome ↔ IsResolved options reading tree
  otherwise :
    ¬ IsResolved options reading tree → ∃ fault, outcome = (.error (.file fault), tree)

section Produced

variable (time : String)

/-- A run that cannot resolve the directory ends with the fault. -/
theorem exists_fault_of_not_resolved
    (notResolved : ¬ IsResolved options (.ok parsed) tree)
    (report : Report) :
    PlansUnknownModel parsed ∧
      ∃ fault,
        (generate options time parsed report).inTree tree = (.error (.file fault), tree) := by
  unfold IsResolved at notResolved
  push Not at notResolved
  obtain ⟨_, ⟨⟩, unknown, heeded, noDirectory⟩ := notResolved
  cases resolves : tree.resolve (schemasPath parsed) with
  | ok directory =>
      exact absurd resolves (noDirectory directory)
  | error fault =>
      exact ⟨unknown, fault, inTree_generate_of_unresolved heeded unknown resolves time report⟩

theorem isTraceless_generate
    (resolved : IsResolved options (.ok parsed) tree)
    (bare : report.IsBare) :
    IsTraceless options (.ok parsed) tree
      ((generate options time parsed report).inTree tree) := by
  constructor
  case unread =>
    rintro fault ⟨⟩
  case refused =>
    rintro _ ⟨⟩ refused
    exact stopsIn_generate_of_refused refused time bare
  case unknown =>
    rintro _ ⟨⟩ unknown
    by_cases refused : IsRefused options parsed
    · exact stopsIn_generate_of_refused refused time bare
    · obtain ⟨directory, resolves⟩ := resolved parsed rfl unknown refused
      exact stopsIn_generate_of_unknownModel refused unknown resolves time bare
  case dry =>
    intro dry
    exact onlyReads_generate_of_dry dry time parsed report tree
  case recorded =>
    intro written later ends succeeded
    exact yields_generate written time parsed report tree later _ (Prod.ext ends rfl) succeeded

theorem isTracelessIfResolved_generate
    (options : RunOptions)
    (parsed : Source.Parsed)
    (bare : report.IsBare)
    (tree : FileTree) :
    IsTracelessIfResolved options (.ok parsed) tree
      ((generate options time parsed report).inTree tree) where
  exactly := by
    refine ⟨fun traceless => ?_, fun resolved => isTraceless_generate time resolved bare⟩
    -- A run that ends with a fault has no report, as the case of an unknown model asks for.
    by_contra notResolved
    obtain ⟨unknown, fault, isFault⟩ := exists_fault_of_not_resolved time notResolved report
    obtain ⟨stopped, isStopped, -⟩ := traceless.unknown parsed rfl unknown
    rw [isFault] at isStopped
    cases isStopped
  otherwise := fun notResolved => (exists_fault_of_not_resolved time notResolved report).2

end Produced

/-- An input that cannot be read ends its run, with a report or with the fault. -/
theorem isTracelessIfResolved_of_unread
    {reading : Except Source.InputFault Source.Parsed}
    {fault : Source.InputFault}
    (isFault : reading = .error fault)
    (options : RunOptions)
    (tree : FileTree) :
    IsTracelessIfResolved options reading tree
      (if fault.isReported then (.ok (unreadReport options fault), tree)
        else (.error (.input fault), tree)) := by
  subst isFault
  have resolved : IsResolved options (.error fault) tree := by
    rintro parsed ⟨⟩
  refine ⟨⟨fun _ => resolved, fun _ => ?_⟩, fun notResolved => absurd resolved notResolved⟩
  constructor
  case unread =>
    rintro _ ⟨⟩ reported
    rw [if_pos reported]
    exact ⟨_, rfl, isBarren_unreadReport options fault⟩
  case refused =>
    rintro _ ⟨⟩
  case unknown =>
    rintro _ ⟨⟩
  case dry =>
    intro _
    split <;> rfl
  case recorded =>
    intro _ report ends succeeded
    split at ends
    · cases ends
      rw [(isBarren_unreadReport options fault).failed] at succeeded
      cases succeeded
    · cases ends

/-- A run from a document and a run from a file do what is asked of them exactly if they can resolve
the directory of the schemas before they come to an unknown model. -/
theorem traceless_iff_resolved
    (options : RunOptions)
    (time : String)
    (tree : FileTree) :
    (∀ parsed,
      IsTracelessIfResolved options (.ok parsed) tree
        ((generate options time parsed (.empty options.isDryRun)).inTree tree)) ∧
      ∀ overrides path,
        IsTracelessIfResolved options (Source.readInput tree path (overridden overrides)) tree
          ((generateFrom options time overrides path).inTree tree) := by
  have bare := Report.isBare_empty options.isDryRun
  refine ⟨fun parsed => isTracelessIfResolved_generate time options parsed bare tree, ?_⟩
  intro overrides path
  rw [inTree_generateFrom]
  cases reading : Source.readInput tree path (overridden overrides) with
  | ok parsed =>
      exact isTracelessIfResolved_generate time options parsed (bare.noteLoad parsed.document path)
        tree
  | error fault =>
      exact isTracelessIfResolved_of_unread rfl options tree

/-- A document with an operation on an unknown model, and an output. -/
def ghostContent (output : String) : String :=
  "\x7b\"metadata\": \x7b\"models\": [], \"modelOperations\": ["
    ++ "\x7b\"model\": \"Ghost\", \"operations\": [\"findMany\"]\x7d]\x7d, "
    ++ "\"config\": \x7b\"output\": \"" ++ output ++ "\"\x7d\x7d"

/-- A run that does not heed the checks reports the unknown model. -/
theorem traceless_iff_resolved_ghostContent :
    ∃ parsed,
      Source.readInput (Source.singleFile (ghostContent "out")) Source.singlePath
          (overridden ⟨[], []⟩) = .ok parsed ∧
        PlansUnknownModel parsed ∧
        IsTraceless ⟨false, false, false⟩ (.ok parsed) (Source.singleFile (ghostContent "out"))
          ((generateFrom ⟨false, false, false⟩ "" ⟨[], []⟩ Source.singlePath).inTree
            (Source.singleFile (ghostContent "out"))) := by
  have readsGhost :
      (Source.readInput (Source.singleFile (ghostContent "out")) Source.singlePath
        (overridden ⟨[], []⟩)).toOption.map (fun parsed =>
          ((planOf parsed).findSome? Assembly.Task.unknownModel?, schemasPath parsed)) =
        some (some "Ghost", .ofText "out/schemas") := by
    rw [Source.readInput, Source.load_singleFile]
    decide +kernel
  obtain ⟨parsed, isParsed, facts⟩ := Option.map_eq_some_iff.mp readsGhost
  have isRead := eq_ok_of_toOption isParsed
  obtain ⟨isGhost, isPath⟩ := Prod.mk.inj facts
  refine ⟨parsed, isRead, plansUnknownModel_iff.mpr ⟨_, isGhost⟩, ?_⟩
  have traceless := (traceless_iff_resolved ⟨false, false, false⟩ ""
    (Source.singleFile (ghostContent "out"))).2 ⟨[], []⟩ Source.singlePath
  rw [isRead] at traceless
  refine traceless.exactly.mpr ?_
  rintro _ ⟨⟩ - -
  have whole : Text.IsWholeText "out/schemas" :=
    Text.isWholeText_of_ascii (by decide)
  have plain : (Source.singleFile (ghostContent "out")).IsPlain :=
    FileTree.isPlain_of_hasPlainEntries rfl
  have seen : FileTree.AreNames (Source.singleFile (ghostContent "out")).workingDirectory :=
    List.forall_mem_nil _
  rw [isPath, FileTree.resolve_of_plain plain seen (FileTree.areNames_ofText whole.isText)]
  exact ⟨_, rfl⟩

/-- Where the output is no path, such a run does not report it. -/
theorem not_isTraceless_ghostContent :
    ¬ ∀ options time overrides path tree,
        IsTraceless options (Source.readInput tree path (overridden overrides)) tree
          ((generateFrom options time overrides path).inTree tree) := by
  intro traceless
  have readsGhost :
      (Source.readInput (Source.singleFile (ghostContent "a\\u0000b")) Source.singlePath
        (overridden ⟨[], []⟩)).toOption.map (fun parsed =>
          ((planOf parsed).findSome? Assembly.Task.unknownModel?,
            FileTree.nameFault? (schemasPath parsed).names)) =
        some (some "Ghost", some .nullByte) := by
    rw [Source.readInput, Source.load_singleFile]
    decide +kernel
  obtain ⟨parsed, isParsed, facts⟩ := Option.map_eq_some_iff.mp readsGhost
  have isRead := eq_ok_of_toOption isParsed
  obtain ⟨isGhost, isFault⟩ := Prod.mk.inj facts
  have unknown : PlansUnknownModel parsed :=
    plansUnknownModel_iff.mpr ⟨_, isGhost⟩
  have unresolved (tree : FileTree) :
      tree.resolve (schemasPath parsed) = .error .nullByte := by
    rw [FileTree.resolve, isFault]
  obtain ⟨report, isStopped, -⟩ :=
    (traceless ⟨false, false, false⟩ "" ⟨[], []⟩ Source.singlePath _).unknown parsed isRead unknown
  have heeded : ¬ IsRefused ⟨false, false, false⟩ parsed :=
    fun refused => Bool.noConfusion refused.1
  rw [inTree_generateFrom, isRead] at isStopped
  dsimp only at isStopped
  rw [inTree_generate_of_unresolved heeded unknown (unresolved _)] at isStopped
  cases isStopped

end Generation

end ZodSchemas
