import ZodSchemas.Proofs.PlainTrees
import ZodSchemas.Proofs.ReportedFaults

namespace ZodSchemas

/-!
# What exit codes tell

An exit code tells two failures apart from all others: that of the input, and
that of the checks.  A generation tells them by its report alone, where an input
that cannot be read is one more error, and a warning that counts is none.  A
command that only checks does not heed its strictness about warnings.
-/

open Data
open Metadata

namespace Generation

section Validation

variable {options : RunOptions} {parsed : Source.Parsed} {report : Report}

/-- A report whose errors of the checks are those of some findings, and none where it has
succeeded. -/
structure Report.Validates (findings : Check.Findings) (report : Report) : Prop where
  errors : report.validationErrors = findings.errors.map Check.Finding.text
  sound : report.succeeded = true → report.validationErrors = []

theorem Report.validates_finish
    {findings : Check.Findings}
    (errors : report.validationErrors = findings.errors.map Check.Finding.text) :
    (report.finish options).Validates findings :=
  ⟨errors, fun succeeded =>
    (hasErrors_eq_false_iff.mp (succeeded_finish_iff.mp succeeded).1).1⟩

theorem yields_exportFiles_validationErrors
    {errors : List String}
    (noted : report.validationErrors = errors)
    (time : String)
    (path : FilePath)
    (files : List RenderedFile) :
    Yields (fun later => later.validationErrors = errors)
      (exportFiles options time parsed path files report) := by
  unfold exportFiles
  split
  · exact .pure noted
  · exact (Yields.any _).bind fun _ _ => (Yields.any _).bind fun _ _ => .pure noted

/-- What comes after the checks leaves their errors as they are. -/
theorem yields_produce_validationErrors
    {errors : List String}
    (noted : report.validationErrors = errors)
    (time : String) :
    Yields (fun later => later.validationErrors = errors)
      (produce options time parsed report) := by
  unfold produce
  refine (Yields.any _).bind fun directory _ => ?_
  dsimp only
  split
  · exact .pure noted
  · refine (Yields.any _).bind fun files _ => ?_
    -- The goal says which report is meant; `noted` alone is about the one before.
    refine yields_exportFiles_validationErrors ?_ time _ files
    exact noted

/-- A run that ends reports the errors that the checks have found. -/
theorem yields_generate_validates
    (time : String)
    (unchecked : report.validationErrors = []) :
    Yields (Report.Validates (Check.full parsed.settings parsed.document))
      (generate options time parsed report) := by
  have noted :
      (report.noteFindings (Check.full parsed.settings parsed.document)).validationErrors =
        (Check.full parsed.settings parsed.document).errors.map Check.Finding.text :=
    congrArg (· ++ _) unchecked
  unfold generate
  dsimp only
  split
  · exact .pure (Report.validates_finish noted)
  · exact (yields_produce_validationErrors noted time).bind fun later kept =>
      .pure (Report.validates_finish kept)

end Validation

end Generation

namespace CommandLine

open Source
open Generation

section Reports

variable {report : Report}

theorem reportCode_ne_inputCode
    (report : Report) :
    reportCode report ≠ inputCode := by
  unfold reportCode
  split_ifs <;> decide

theorem reportCode_eq_validationCode_iff
    (sound : report.succeeded = true → report.validationErrors = []) :
    reportCode report = validationCode ↔ report.validationErrors ≠ [] := by
  unfold reportCode
  split_ifs with succeeded someErrors
  · exact iff_of_false (by decide) (not_not.mpr (sound succeeded))
  · exact iff_of_true rfl (by simpa using someErrors)
  all_goals
    exact iff_of_false (by decide) (by simpa using someErrors)

theorem reportCode_unreadReport
    (options : RunOptions)
    (fault : InputFault) :
    reportCode (unreadReport options fault) = generationCode := by
  unfold reportCode
  rw [(isBarren_unreadReport options fault).failed]
  rfl

end Reports

/-! What a command is asked for -/

/-- A number of workers is given that is too small. -/
def HasTooFewWorkers (arguments : Arguments) : Prop :=
  ∃ number, arguments.workers = .value number ∧ number < 1

/-- The words of a command lead to a path, and it can be told whether a file is there. -/
def LeadsTo (tree : FileTree) (arguments : Arguments) (path : FilePath) (isFound : Bool) : Prop :=
  ∃ text, arguments.metadata = .value text ∧ tree.resolve (.ofText text) = .ok path ∧
    tree.isFile path = .ok isFound

/-- The words of a command lead to a file. -/
def FindsFile (tree : FileTree) (arguments : Arguments) (path : FilePath) : Prop :=
  LeadsTo tree arguments path true

/-- The reading of a file, with the overrides of a command as its mode applies them. -/
def reading (tree : FileTree) (arguments : Arguments) (path : FilePath) :
    Except InputFault Parsed :=
  if arguments.validatesOnly then readInput tree path (checkedDocument arguments)
  else readInput tree path (overridden arguments.overrides)

/-- What a command reads of its document. -/
def Reads (tree : FileTree) (arguments : Arguments) (parsed : Parsed) : Prop :=
  ∃ path, FindsFile tree arguments path ∧ reading tree arguments path = .ok parsed

/-- The document of a command is missing, or cannot be loaded or parsed, or the number of workers
is too small. -/
def LacksInput (tree : FileTree) (arguments : Arguments) : Prop :=
  HasTooFewWorkers arguments ∨ ∀ parsed, ¬ Reads tree arguments parsed

/-- The checks report an error, or a warning where those count. -/
def FailsChecks (tree : FileTree) (arguments : Arguments) : Prop :=
  ∃ parsed, Reads tree arguments parsed ∧
    ((Check.full parsed.settings parsed.document).errors ≠ [] ∨
      arguments.failsOnWarnings = true ∧
        (Check.full parsed.settings parsed.document).warnings ≠ [])

/-- An exit code that tells a failure of the input, and then one of the checks, from all other
outcomes. -/
structure IsClassified (tree : FileTree) (arguments : Arguments) (code : Nat) : Prop where
  input : code = inputCode ↔ LacksInput tree arguments
  validation :
    ¬ LacksInput tree arguments → (code = validationCode ↔ FailsChecks tree arguments)

/-- A command that ends with such an exit code. -/
def ClassifiesFailure (tree : FileTree) (arguments : Arguments)
    (result : Except RunFault Outcome × FileTree) : Prop :=
  ∃ outcome, result.1 = .ok outcome ∧ IsClassified tree arguments outcome.code

/-- The part of a command that does its work. -/
def work (time : String) (arguments : Arguments) (path : FilePath) : Run Outcome :=
  if arguments.validatesOnly then check arguments path else generate time arguments path

section Perform

variable {time : String} {arguments : Arguments} {tree : FileTree} {path : FilePath}
variable {outcome : Outcome}

theorem LeadsTo.unique
    {other : FilePath}
    {isFound alsoFound : Bool}
    (leads : LeadsTo tree arguments path isFound)
    (alsoLeads : LeadsTo tree arguments other alsoFound) :
    path = other ∧ isFound = alsoFound := by
  obtain ⟨text, isText, resolves, isFile⟩ := leads
  obtain ⟨otherText, isOtherText, alsoResolves, isOtherFile⟩ := alsoLeads
  obtain rfl := Given.value.inj (isText.symm.trans isOtherText)
  obtain rfl := Except.ok.inj (resolves.symm.trans alsoResolves)
  exact ⟨rfl, Except.ok.inj (isFile.symm.trans isOtherFile)⟩

theorem inTree_lacksWorkers
    (given : Given Int)
    (tree : FileTree) :
    (lacksWorkers given).inTree tree =
      (match given with
        | .absent => .ok false
        | .blank => .error .noValue
        | .value number => .ok (decide (number < 1)), tree) := by
  cases given <;> rfl

/-- The part of a command that looks for its document. -/
def search (time : String) (arguments : Arguments) : Run Outcome := do
  let written := FilePath.ofText (← required arguments.metadata)
  let path ← Run.change (Change.ask fun tree => tree.resolve written)
  if !(← Run.change (Change.ask fun tree => tree.isFile path)) then
    pure (.silent inputCode)
  else
    work time arguments path

/-- A command looks for its document unless the number of workers is at fault. -/
theorem inTree_perform
    (time : String)
    (arguments : Arguments)
    (tree : FileTree) :
    (perform time arguments).inTree tree =
      match arguments.workers with
      | .absent => (search time arguments).inTree tree
      | .blank => (.error .noValue, tree)
      | .value number =>
          if number < 1 then (.ok (.silent inputCode), tree)
          else (search time arguments).inTree tree := by
  have inTurn :
      perform time arguments =
        lacksWorkers arguments.workers >>= fun lacks =>
          if lacks then pure (.silent inputCode) else search time arguments :=
    rfl
  rw [inTurn, Run.inTree_bind, inTree_lacksWorkers]
  cases arguments.workers with
  | absent =>
      rfl
  | blank =>
      rfl
  | value number =>
      by_cases tooFew : number < 1 <;> simp only [tooFew] <;> rfl

theorem inTree_perform_of_tooFew
    (tooFew : HasTooFewWorkers arguments) :
    (perform time arguments).inTree tree = (.ok (.silent inputCode), tree) := by
  obtain ⟨number, given, below⟩ := tooFew
  rw [inTree_perform, given]
  exact if_pos below

/-- With enough workers, a command ends as its search does. -/
theorem ends_perform_iff
    (enough : ¬ HasTooFewWorkers arguments) :
    ((perform time arguments).inTree tree).1 = .ok outcome ↔
      arguments.workers ≠ .blank ∧ ((search time arguments).inTree tree).1 = .ok outcome := by
  rw [inTree_perform]
  cases given : arguments.workers with
  | absent =>
      simp
  | blank =>
      simp
  | value number =>
      have notBelow : ¬ number < 1 := fun below => enough ⟨number, given, below⟩
      simp [notBelow]

/-- A search goes on with its file, or it says that there is none. -/
theorem inTree_search_of_leadsTo
    {isFound : Bool}
    (leads : LeadsTo tree arguments path isFound) :
    (search time arguments).inTree tree =
      if isFound then (work time arguments path).inTree tree
      else (.ok (.silent inputCode), tree) := by
  obtain ⟨text, given, resolves, isFile⟩ := leads
  unfold search
  simp only [given, required, pure_bind, Run.inTree_bind, Run.inTree_change, Change.inTree_ask,
    resolves, Except.mapError, isFile]
  cases isFound <;> rfl

theorem exists_leadsTo_of_ends
    (ends : ((search time arguments).inTree tree).1 = .ok outcome) :
    ∃ path isFound, LeadsTo tree arguments path isFound := by
  -- A search may end with a fault at each of its questions; this one does not.
  unfold search at ends
  cases given : arguments.metadata with
  | absent | blank =>
      rw [given] at ends
      cases ends
  | value text =>
      rw [given] at ends
      simp only [required, pure_bind, Run.inTree_bind, Run.inTree_change, Change.inTree_ask] at ends
      cases resolves : tree.resolve (.ofText text) with
      | error fault =>
          rw [resolves] at ends
          cases ends
      | ok path =>
          rw [resolves] at ends
          simp only [Except.mapError] at ends
          cases isFile : tree.isFile path with
          | error fault =>
              rw [isFile] at ends
              cases ends
          | ok isFound =>
              exact ⟨path, isFound, text, given, resolves, isFile⟩

/-- A search that ends has found no file, and says so, or it has done its work on the one that it
has found. -/
theorem search_cases
    (ends : ((search time arguments).inTree tree).1 = .ok outcome) :
    ((∀ path, ¬ FindsFile tree arguments path) ∧ outcome.code = inputCode) ∨
      ∃ path, FindsFile tree arguments path ∧
        ((work time arguments path).inTree tree).1 = .ok outcome := by
  obtain ⟨path, isFound, leads⟩ := exists_leadsTo_of_ends ends
  rw [inTree_search_of_leadsTo leads] at ends
  cases isFound with
  | true =>
      exact .inr ⟨path, leads, ends⟩
  | false =>
      cases ends
      exact .inl ⟨fun other finds => Bool.noConfusion (leads.unique finds).2, rfl⟩

/-- A search ends if its words lead somewhere, and its work ends where there is a file. -/
theorem exists_outcome_search_iff :
    (∃ outcome, ((search time arguments).inTree tree).1 = .ok outcome) ↔
      (∃ path isFound, LeadsTo tree arguments path isFound) ∧
        ∀ path, FindsFile tree arguments path →
          ∃ outcome, ((work time arguments path).inTree tree).1 = .ok outcome := by
  constructor
  · rintro ⟨outcome, ends⟩
    refine ⟨exists_leadsTo_of_ends ends, fun path finds => ⟨outcome, ?_⟩⟩
    rw [inTree_search_of_leadsTo finds] at ends
    exact ends
  · rintro ⟨⟨path, isFound, leads⟩, works⟩
    rw [inTree_search_of_leadsTo leads]
    cases isFound with
    | true =>
        exact works path leads
    | false =>
        exact ⟨_, rfl⟩

end Perform

/-! What the two modes answer -/

section Work

variable {time : String} {arguments : Arguments} {tree : FileTree} {path : FilePath}
variable {outcome : Outcome}

/-- How a mode answers what it has read of a file: where that is a document, with the errors of its
checks and with no fault of the input; otherwise with a fault of the input, if it only checks. -/
def AnswersReading (tree : FileTree) (arguments : Arguments) (path : FilePath)
    (outcome : Outcome) : Prop :=
  match reading tree arguments path with
  | .ok parsed =>
      outcome.code ≠ inputCode ∧
        (outcome.code = validationCode ↔
          (Check.full parsed.settings parsed.document).errors ≠ [])
  | .error _ => outcome.code = if arguments.validatesOnly then inputCode else generationCode

theorem hasErrors_iff
    {findings : Check.Findings} :
    findings.hasErrors = true ↔ findings.errors ≠ [] := by
  have passing := @not_passes_iff ⟨true, false, true⟩ findings
  simpa [passes] using passing

theorem code_checkOutcome
    (path : FilePath)
    (parsed : Parsed) :
    (checkOutcome path parsed).code =
      if (Check.full parsed.settings parsed.document).errors ≠ [] then validationCode
      else successCode := by
  have code :
      (checkOutcome path parsed).code =
        if (Check.full parsed.settings parsed.document).hasErrors then validationCode
        else successCode :=
    rfl
  rw [code]
  simp only [hasErrors_iff]

theorem answersReading_check
    (checksOnly : arguments.validatesOnly = true)
    (ends : ((check arguments path).inTree tree).1 = .ok outcome) :
    AnswersReading tree arguments path outcome := by
  rw [inTree_check] at ends
  unfold AnswersReading reading
  rw [if_pos checksOnly, if_pos checksOnly]
  cases isRead : readInput tree path (checkedDocument arguments) with
  | ok parsed =>
      rw [isRead] at ends
      obtain rfl : checkOutcome path parsed = outcome := Except.ok.inj ends
      dsimp only
      rw [code_checkOutcome]
      split
      · exact ⟨by decide, iff_of_true rfl ‹_›⟩
      · exact ⟨by decide, iff_of_false (by decide) ‹_›⟩
  | error fault =>
      rw [isRead] at ends
      dsimp only at ends ⊢
      split at ends
      · cases ends
        rfl
      · cases ends

theorem answersReading_generate
    (generates : arguments.validatesOnly = false)
    (ends : ((generate time arguments path).inTree tree).1 = .ok outcome) :
    AnswersReading tree arguments path outcome := by
  obtain ⟨report, isReport, isCode⟩ := exists_report_of_generate ends
  rw [inTree_generateFrom] at isReport
  unfold AnswersReading reading
  rw [if_neg (Bool.eq_false_iff.mp generates), if_neg (Bool.eq_false_iff.mp generates), isCode]
  cases isRead : readInput tree path (overridden arguments.overrides) with
  | ok parsed =>
      rw [isRead] at isReport
      have validates := yields_generate_validates time rfl tree report _ (Prod.ext isReport rfl)
      refine ⟨reportCode_ne_inputCode report, ?_⟩
      rw [reportCode_eq_validationCode_iff validates.sound, validates.errors, ne_eq,
        List.map_eq_nil_iff]
  | error fault =>
      rw [isRead] at isReport
      dsimp only at isReport ⊢
      split at isReport
      · cases isReport
        exact reportCode_unreadReport arguments.runOptions fault
      · cases isReport

/-- Each mode answers what it has read, wherever it ends. -/
theorem answersReading_work
    (ends : ((work time arguments path).inTree tree).1 = .ok outcome) :
    AnswersReading tree arguments path outcome := by
  unfold work at ends
  split at ends
  · exact answersReading_check ‹_› ends
  · exact answersReading_generate (Bool.eq_false_iff.mpr ‹_›) ends

/-- A mode ends with an outcome exactly if its input is answered and, in a generation, the run on
what is read of it ends with a report. -/
theorem exists_outcome_work_iff :
    (∃ outcome, ((work time arguments path).inTree tree).1 = .ok outcome) ↔
      IsInputAnswered (reading tree arguments path) ∧
        (arguments.validatesOnly = false →
          ReportsWhatIsRead tree path arguments arguments.runOptions time) := by
  unfold work reading
  cases arguments.validatesOnly with
  | true =>
      rw [if_pos rfl, if_pos rfl, exists_outcome_check_iff]
      exact (and_iff_left fun generates => Bool.noConfusion generates).symm
  | false =>
      rw [if_neg Bool.false_ne_true, if_neg Bool.false_ne_true, exists_outcome_generate_iff,
        exists_report_iff]
      exact and_congr_right fun _ => ⟨fun reports _ => reports, fun reports => reports rfl⟩

end Work

/-- No fault on the way of a command is one that is not reported: the words lead to a path, a file
that is there is read or its fault is reported, and a generation ends with a report about what it
has read. -/
structure IsCarriedOut (tree : FileTree) (arguments : Arguments) (time : String) : Prop where
  hasWorkers : arguments.workers ≠ .blank
  leads : ∃ path isFound, LeadsTo tree arguments path isFound
  answered :
    ∀ path, FindsFile tree arguments path → IsInputAnswered (reading tree arguments path)
  reported :
    arguments.validatesOnly = false → ∀ path, FindsFile tree arguments path →
      ReportsWhatIsRead tree path arguments arguments.runOptions time

/-- A generation can read the file that it has found. -/
def ReadsWhatIsFound (tree : FileTree) (arguments : Arguments) : Prop :=
  arguments.validatesOnly = false → ∀ path, FindsFile tree arguments path →
    ∃ parsed, Reads tree arguments parsed

/-- The checks do not report warnings alone where those count. -/
def HasNoDecisiveWarning (tree : FileTree) (arguments : Arguments) : Prop :=
  ∀ parsed, Reads tree arguments parsed → arguments.failsOnWarnings = true →
    (Check.full parsed.settings parsed.document).warnings ≠ [] →
      (Check.full parsed.settings parsed.document).errors ≠ []

section Command

variable {time : String} {arguments : Arguments} {tree : FileTree} {path : FilePath}
variable {outcome : Outcome} {code : Nat}

theorem reads_iff
    (finds : FindsFile tree arguments path)
    {parsed : Parsed} :
    Reads tree arguments parsed ↔ reading tree arguments path = .ok parsed := by
  constructor
  · rintro ⟨other, alsoFinds, isRead⟩
    rw [(LeadsTo.unique finds alsoFinds).1]
    exact isRead
  · exact fun isRead => ⟨path, finds, isRead⟩

/-- Without a file the failure of the input is told. -/
theorem isClassified_of_lacksInput
    (lacks : LacksInput tree arguments) :
    IsClassified tree arguments inputCode :=
  ⟨iff_of_true rfl lacks, fun hasInput => absurd lacks hasInput⟩

/-- A document that has been read is classified exactly if its checks do not report warnings alone
where those count. -/
theorem isClassified_iff_of_reads
    (enough : ¬ HasTooFewWorkers arguments)
    {parsed : Parsed}
    (reads : ∀ other, Reads tree arguments other ↔ other = parsed)
    (noFault : code ≠ inputCode)
    (told :
      code = validationCode ↔ (Check.full parsed.settings parsed.document).errors ≠ []) :
    IsClassified tree arguments code ↔ HasNoDecisiveWarning tree arguments := by
  have hasInput : ¬ LacksInput tree arguments := by
    rintro (tooFew | unread)
    · exact enough tooFew
    · exact unread parsed ((reads parsed).mpr rfl)
  have classified :
      IsClassified tree arguments code ↔ (code = validationCode ↔ FailsChecks tree arguments) :=
    ⟨fun isClassified => isClassified.validation hasInput,
      fun validation => ⟨iff_of_false noFault hasInput, fun _ => validation⟩⟩
  rw [classified, told]
  unfold FailsChecks HasNoDecisiveWarning
  simp only [reads, exists_eq_left, forall_eq, iff_self_or, and_imp]

/-- A file that cannot be read is classified exactly if its command only checks. -/
theorem isClassified_iff_of_unread
    (unread : ∀ parsed, ¬ Reads tree arguments parsed)
    (finds : FindsFile tree arguments path)
    (told : code = if arguments.validatesOnly then inputCode else generationCode) :
    IsClassified tree arguments code ↔ ReadsWhatIsFound tree arguments := by
  cases checksOnly : arguments.validatesOnly with
  | true =>
      rw [checksOnly] at told
      refine iff_of_true (told ▸ isClassified_of_lacksInput (.inr unread)) ?_
      intro generates
      rw [checksOnly] at generates
      cases generates
  | false =>
      rw [checksOnly] at told
      refine iff_of_false (fun classified => ?_) (fun readsFound => ?_)
      · have isInput := classified.input.mpr (.inr unread)
        rw [told] at isInput
        exact absurd isInput (by decide)
      · obtain ⟨parsed, reads⟩ := readsFound checksOnly path finds
        exact unread parsed reads

theorem isClassified_iff
    (enough : ¬ HasTooFewWorkers arguments)
    (ends : ((search time arguments).inTree tree).1 = .ok outcome) :
    IsClassified tree arguments outcome.code ↔
      ReadsWhatIsFound tree arguments ∧ HasNoDecisiveWarning tree arguments := by
  rcases search_cases ends with ⟨unfound, isInput⟩ | ⟨path, finds, ends⟩
  · have unread (parsed : Parsed) : ¬ Reads tree arguments parsed := by
      rintro ⟨path, finds, -⟩
      exact unfound path finds
    rw [isInput]
    -- Both conditions are about what is read of a file, so they hold where there is none.
    refine iff_of_true (isClassified_of_lacksInput (.inr unread)) ⟨?_, ?_⟩
    · exact fun _ path finds => absurd finds (unfound path)
    · exact fun parsed reads => absurd reads (unread parsed)
  · have answers := answersReading_work ends
    unfold AnswersReading at answers
    cases isRead : reading tree arguments path with
    | ok parsed =>
        rw [isRead] at answers
        have reads (other : Parsed) : Reads tree arguments other ↔ other = parsed := by
          rw [reads_iff finds, isRead, Except.ok.injEq, eq_comm]
        rw [isClassified_iff_of_reads enough reads answers.1 answers.2]
        exact (and_iff_right fun _ _ _ => ⟨parsed, (reads parsed).mpr rfl⟩).symm
    | error fault =>
        rw [isRead] at answers
        have unread (parsed : Parsed) : ¬ Reads tree arguments parsed := by
          rw [reads_iff finds, isRead]
          rintro ⟨⟩
        rw [isClassified_iff_of_unread unread finds answers]
        exact (and_iff_left fun parsed reads => absurd reads (unread parsed)).symm

theorem exists_outcome_perform_iff
    (enough : ¬ HasTooFewWorkers arguments) :
    (∃ outcome, ((perform time arguments).inTree tree).1 = .ok outcome) ↔
      IsCarriedOut tree arguments time := by
  simp only [ends_perform_iff enough, exists_and_left, exists_outcome_search_iff,
    exists_outcome_work_iff]
  constructor
  · rintro ⟨hasWorkers, leads, works⟩
    exact ⟨hasWorkers, leads, fun path finds => (works path finds).1,
      fun generates path finds => (works path finds).2 generates⟩
  · rintro ⟨hasWorkers, leads, answered, reported⟩
    exact ⟨hasWorkers, leads, fun path finds =>
      ⟨answered path finds, fun generates => reported generates path finds⟩⟩

/-- A command tells by its exit code which part has failed exactly if the number of workers is too
small, or if no fault on its way goes unreported, it does not generate from a file that it cannot
read, and it does not find warnings alone where those count. -/
theorem classifiesFailure_iff
    {texts : List String}
    (accepted : Arguments.ofTexts texts = .ok arguments)
    (time : String)
    (tree : FileTree) :
    ClassifiesFailure tree arguments ((command time texts).inTree tree) ↔
      HasTooFewWorkers arguments ∨
        IsCarriedOut tree arguments time ∧ ReadsWhatIsFound tree arguments ∧
          HasNoDecisiveWarning tree arguments := by
  have carriedOut : command time texts = perform time arguments := by
    rw [command, accepted]
  rw [carriedOut]
  unfold ClassifiesFailure
  by_cases tooFew : HasTooFewWorkers arguments
  · rw [inTree_perform_of_tooFew tooFew]
    exact iff_of_true ⟨_, rfl, isClassified_of_lacksInput (.inl tooFew)⟩ (.inl tooFew)
  · have classified (outcome : Outcome)
        (ends : ((perform time arguments).inTree tree).1 = .ok outcome) :
        IsClassified tree arguments outcome.code ↔
          ReadsWhatIsFound tree arguments ∧ HasNoDecisiveWarning tree arguments :=
      isClassified_iff tooFew ((ends_perform_iff tooFew).mp ends).2
    rw [or_iff_right tooFew, ← exists_outcome_perform_iff tooFew]
    constructor
    · rintro ⟨outcome, ends, isClassified⟩
      exact ⟨⟨outcome, ends⟩, (classified outcome ends).mp isClassified⟩
    · rintro ⟨⟨outcome, ends⟩, conditions⟩
      exact ⟨outcome, ends, (classified outcome ends).mpr conditions⟩

/-- The path from the root to the only document of a tree. -/
def rootedPath : FilePath :=
  .fromRoot ["doc.json"]

theorem locate_rootedPath
    (content : String)
    (access : FileTree.Access) :
    (singleFile content).locate access rootedPath =
      .ok ⟨["doc.json"], some (.file (Text.encodeUtf8 content))⟩ := by
  have names : rootedPath.names = ["doc.json"] := by
    decide
  have atRoot : (singleFile content).startOf rootedPath = [] :=
    rfl
  rw [FileTree.locate, if_neg (by decide), if_neg (by decide), if_neg (by decide), names, atRoot,
    follow_singleFile]

theorem findsFile_singleFile
    (given : arguments.metadata = .value "doc.json")
    (content : String) :
    FindsFile (singleFile content) arguments rootedPath := by
  have whole : Text.IsWholeText "doc.json" :=
    Text.isWholeText_of_ascii (by decide)
  have plain : (singleFile content).IsPlain :=
    FileTree.isPlain_of_hasPlainEntries rfl
  refine ⟨"doc.json", given, ?_, ?_⟩
  · rw [FileTree.resolve_of_plain plain (List.forall_mem_nil _)
      (FileTree.areNames_ofText whole.isText)]
    rfl
  · rw [FileTree.isFile, FileTree.entryAt, locate_rootedPath]
    rfl

theorem load_rootedPath
    (content : String) :
    load (singleFile content) rootedPath = readJson "/doc.json" (Text.encodeUtf8 content) := by
  have fileType : rootedPath.fileType = ".json" := by
    decide +kernel
  have text : rootedPath.text = "/doc.json" := by
    decide
  rw [load_of_located (locate_rootedPath content .target), fileType, text, readAs,
    if_neg (by decide), if_pos rfl]

end Command

/-- Arguments that ask for the only document of a tree to be checked. -/
def singleArguments : Arguments :=
  { Arguments.none with metadata := .value "doc.json" }

/-- A command that only checks tells that an empty object is no document. -/
theorem classifiesFailure_iff_emptyObject :
    Arguments.ofTexts ["-m", "doc.json", "--validate-only"] =
        .ok { singleArguments with validatesOnly := true } ∧
      ClassifiesFailure (singleFile "\x7b\x7d") { singleArguments with validatesOnly := true }
        ((command "" ["-m", "doc.json", "--validate-only"]).inTree (singleFile "\x7b\x7d")) := by
  have accepted :
      Arguments.ofTexts ["-m", "doc.json", "--validate-only"] =
        .ok { singleArguments with validatesOnly := true } := by
    decide +kernel
  have finds : FindsFile (singleFile "\x7b\x7d") { singleArguments with validatesOnly := true }
      rootedPath :=
    findsFile_singleFile rfl _
  have isFault :
      readInput (singleFile "\x7b\x7d") rootedPath
          (checkedDocument { singleArguments with validatesOnly := true }) =
        .error (.source .noMetadata) := by
    rw [readInput, load_rootedPath]
    decide +kernel
  have answered (path : FilePath)
      (alsoFinds : FindsFile (singleFile "\x7b\x7d")
        { singleArguments with validatesOnly := true } path) :
      IsInputAnswered (reading (singleFile "\x7b\x7d")
        { singleArguments with validatesOnly := true } path) := by
    rw [← (LeadsTo.unique finds alsoFinds).1, reading, if_pos rfl, isFault]
    rintro _ ⟨⟩
    rfl
  refine ⟨accepted, (classifiesFailure_iff accepted "" _).mpr (.inr ⟨?_, ?_, ?_⟩)⟩
  · exact ⟨by decide, ⟨rootedPath, true, finds⟩, answered, fun generates =>
      Bool.noConfusion generates⟩
  · exact fun generates => Bool.noConfusion generates
  · exact fun _ _ heeds => Bool.noConfusion heeds

/-- A generation does not tell it from other faults. -/
theorem not_classifiesFailure_emptyObject :
    ¬ ClassifiesFailure (singleFile "\x7b\x7d") singleArguments
        ((command "" ["-m", "doc.json"]).inTree (singleFile "\x7b\x7d")) := by
  have accepted : Arguments.ofTexts ["-m", "doc.json"] = .ok singleArguments := by
    decide +kernel
  have finds : FindsFile (singleFile "\x7b\x7d") singleArguments rootedPath :=
    findsFile_singleFile rfl _
  have isFault :
      reading (singleFile "\x7b\x7d") singleArguments rootedPath =
        .error (.source .noMetadata) := by
    rw [reading, if_neg (by decide), readInput, load_rootedPath]
    decide +kernel
  rintro ⟨outcome, ends, classified⟩
  rw [command, accepted] at ends
  have enough : ¬ HasTooFewWorkers singleArguments := by
    rintro ⟨number, ⟨⟩, -⟩
  have readsFound :=
    ((isClassified_iff enough ((ends_perform_iff enough).mp ends).2).mp classified).1
  obtain ⟨parsed, reads⟩ := readsFound rfl rootedPath finds
  rw [reads_iff finds, isFault] at reads
  cases reads

end CommandLine

end ZodSchemas
