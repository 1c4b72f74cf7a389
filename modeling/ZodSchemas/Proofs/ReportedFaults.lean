import ZodSchemas.Proofs.CommandModes
import ZodSchemas.Proofs.UnfinishedRuns
import ZodSchemas.Proofs.WellShapedSections

namespace ZodSchemas

/-!
# What is reported about a document

A document that is not well-shaped ends a run or a command without a report and
without an exit code.  Overrides change this in one way only: they ask for a
settings section that they can be merged with.  A command that only checks asks for
it even where nothing is overridden.
-/

open Data
open Data.Mapping
open Metadata
open Generation

namespace Source

section Sections

/-- The sections of two documents agree outside some keys, or neither has one. -/
def SectionsAgree (keys : List String) (raw other : Mapping) : Prop :=
  Option.Rel (AgreeOutside keys) (metadataSection? raw) (metadataSection? other)

variable {keys : List String} {raw other : Mapping}

theorem sectionsAgree_of_eq
    (keys : List String)
    (same : metadataSection? raw = metadataSection? other) :
    SectionsAgree keys raw other := by
  rw [SectionsAgree, same]
  cases metadataSection? other with
  | none =>
      exact .none
  | some data =>
      exact .some fun _ _ => rfl

theorem isWellShapedSource_congr
    (apart : ∀ key ∈ sectionKeys, key ∉ keys)
    (agree : SectionsAgree keys raw other) :
    IsWellShapedSource raw ↔ IsWellShapedSource other := by
  unfold SectionsAgree at agree
  unfold IsWellShapedSource
  generalize metadataSection? raw = first at agree
  generalize metadataSection? other = second at agree
  cases agree with
  | none =>
      rfl
  | some sectionsAgree =>
      simp only [Option.some.injEq, forall_eq']
      exact isWellShaped_congr apart sectionsAgree

theorem metadataSection?_eq_of_bare
    (bare : IsBare raw) :
    metadataSection? raw =
      if raw.contains "models" || raw.contains "datamodel" then some raw else none := by
  rw [metadataSection?, bare.1, bare.2]

/-- Documents without a section of their own are sections as wholes. -/
theorem sectionsAgree_of_bare
    (bare : IsBare raw)
    (otherBare : IsBare other)
    (agree : AgreeOutside keys raw other)
    (unlisted : "models" ∉ keys ∧ "datamodel" ∉ keys) :
    SectionsAgree keys raw other := by
  rw [SectionsAgree, metadataSection?_eq_of_bare bare, metadataSection?_eq_of_bare otherBare,
    contains, contains, contains, contains, agree "models" unlisted.1,
    agree "datamodel" unlisted.2]
  split
  · exact .some agree
  · exact .none

/-- The settings are no part of the metadata. -/
theorem sectionsAgree_of_settings
    (agree : AgreeOutside ["config"] raw other) :
    SectionsAgree ["config"] raw other := by
  by_cases bare : IsBare raw
  · exact sectionsAgree_of_bare bare ((isBare_congr agree).mp bare) agree (by decide)
  · apply sectionsAgree_of_eq
    rw [metadataSection?_of_sectioned bare,
      metadataSection?_of_sectioned (mt (isBare_congr agree).mpr bare),
      nested?_congr agree (by decide), nested?_congr agree (by decide)]

/-- Outside of shadowed documents the section that receives overrides is the one that is read. -/
theorem metadataSection?_of_overridden
    (unshadowed : ¬ IsShadowed raw)
    {entries : Mapping}
    (receives : nested? raw (overriddenSection raw) = some entries) :
    metadataSection? raw = some entries := by
  cases hasDmmf : raw.contains "dmmf" with
  | true =>
      have noMetadata := nested?_metadata_of_unshadowed unshadowed hasDmmf
      rw [overriddenSection, if_pos hasDmmf] at receives
      rw [metadataSection?, noMetadata, receives]
  | false =>
      rw [overriddenSection, if_neg (Bool.eq_false_iff.mp hasDmmf)] at receives
      exact metadataSection?_of_nested receives

/-- An override of the provider changes at most the provider of what is read. -/
theorem sectionsAgree_overrideMetadata
    (raw : Mapping)
    (provider : Provider) :
    SectionsAgree ["provider"] raw (overrideMetadata (providerOverride provider) raw) := by
  -- The override goes past the section that is read only in a shadowed document.
  by_cases shadowed : IsShadowed raw
  · exact sectionsAgree_of_eq _ (metadataSection?_of_shadowed shadowed provider).symm
  · cases receives : nested? raw (overriddenSection raw) with
    | some entries =>
        rw [overrideMetadata, overrideSection?_eq, receives, Option.map_some, Option.getD_some,
          SectionsAgree, metadataSection?_put_of_unshadowed shadowed, overlay_providerOverride,
          metadataSection?_of_overridden shadowed receives]
        exact .some (agreeOutside_put (by decide) entries _)
    | none =>
        have bare := isBare_of_unshadowed shadowed receives
        rw [overrideMetadata_of_bare bare]
        exact sectionsAgree_of_bare bare (isBare_put_provider bare _)
          (agreeOutside_put (by decide) raw _) (by decide)

/-- Where no section receives the override, the document may as well be left as it is. -/
theorem sectionsAgree_overrideSection
    (raw : Mapping)
    (provider : Provider) :
    SectionsAgree ["provider"] raw
      ((overrideSection? (providerOverride provider) raw).getD raw) := by
  have agree := sectionsAgree_overrideMetadata raw provider
  unfold overrideMetadata at agree
  cases isOverridden : overrideSection? (providerOverride provider) raw with
  | some changed =>
      rw [isOverridden] at agree
      exact agree
  | none =>
      exact sectionsAgree_of_eq _ rfl

end Sections

section Settings

/-- A settings section that overrides can be merged with: it counts as absent, or it is an object
whose keys are texts. -/
def IsMergeable (config : Value) : Prop :=
  config.isVacant = true ∨
    ∃ entries, config = .mapping entries ∧ ∀ entry ∈ entries, ∃ key, entry.1 = .text key

/-- A section with nothing but settings can be merged with overrides. -/
theorem isMergeable_of_spelled
    {config : Value}
    (spelled : IsSpelledSection config) :
    IsMergeable config := by
  rcases spelled with rfl | ⟨entries, rfl, spelled⟩
  · exact .inl rfl
  · refine .inr ⟨entries, rfl, fun entry member => ?_⟩
    obtain ⟨_, -, spelling, -, isKey⟩ := spelled entry member
    exact ⟨spelling, isKey⟩

theorem exists_documentKey_iff
    {key : Scalar} :
    (∃ renamed, documentKey key = .ok renamed) ↔ ∃ text, key = .text text := by
  cases key <;> simp [documentKey]

theorem exists_documentEntries_iff
    {config : Value} :
    (∃ entries, documentEntries config = .ok entries) ↔ IsMergeable config := by
  unfold documentEntries IsMergeable
  cases vacant : config.isVacant with
  | true =>
      simp
  | false =>
      cases config with
      | mapping entries =>
          simp only [exists_bind_iff, exists_mapM_iff, exceptMap_eq_ok_iff, Except.ok.injEq,
            exists_eq', and_true, Bool.false_eq_true, if_false, false_or, Value.mapping.injEq,
            exists_eq_left', ← exists_documentKey_iff]
          refine forall₂_congr fun entry _ => ?_
          exact ⟨fun ⟨_, key, isKey, _⟩ => ⟨key, isKey⟩, fun ⟨key, isKey⟩ => ⟨_, key, isKey, rfl⟩⟩
      | scalar | set | pair | list =>
          simp

theorem isSilent_documentEntries
    (config : Value) :
    IsSilent (documentEntries config) := by
  have documentKey (key : Scalar) : IsSilent (documentKey key) := by
    unfold Source.documentKey
    split
    · exact .ok _
    · exact .error rfl
  unfold documentEntries
  split
  · exact .ok _
  · split
    · exact (IsSilent.mapM (fun entry : Scalar × Value => (documentKey entry.1).map _) _).bind
        fun _ => .ok _
    · exact .error rfl

theorem isSilent_overrideSettings
    (overrides raw : Mapping) :
    IsSilent (overrideSettings overrides raw) :=
  ((isSilent_documentEntries _).bind fun _ => (isSilent_documentEntries _).bind fun _ =>
    .ok _).bind fun _ => .ok _

/-- Overrides with texts as keys can be merged with a settings section that can be. -/
theorem exists_overrideSettings_iff
    {overrides raw : Mapping}
    (texts : ∀ entry ∈ overrides, ∃ key, entry.1 = .text key) :
    (∃ adapted, overrideSettings overrides raw = .ok adapted) ↔ IsMergeable (configValue raw) := by
  have mergeable : IsMergeable (.mapping overrides) := .inr ⟨overrides, rfl, texts⟩
  rw [← exists_documentEntries_iff] at mergeable ⊢
  unfold overrideSettings mergeSettings
  simp only [exists_bind_iff, Except.ok.injEq, exists_eq', and_true, mergeable]
  rfl

end Settings

/-- A document that is adapted and then read is answered exactly if it can be adapted, and what it
is adapted to is well-shaped. -/
theorem isAnswered_bind_parse_iff
    {adapted : Except Fault Mapping}
    (silent : IsSilent adapted) :
    IsAnswered (adapted >>= parse) ↔
      ∃ raw, adapted = .ok raw ∧ IsWellShapedSource raw := by
  cases adapted with
  | ok raw =>
      simp only [Except.ok.injEq, exists_eq_left', ← isAnswered_parse_iff]
      rfl
  | error fault =>
      refine iff_of_false (fun answered => ?_) (by rintro ⟨_, ⟨⟩, -⟩)
      have reported := answered fault rfl
      rw [silent fault rfl] at reported
      contradiction

/-- An input that is read, or whose fault is reported. -/
def IsInputAnswered (reading : Except InputFault Parsed) : Prop :=
  ∀ fault, reading = .error fault → fault.isReported = true

theorem isInputAnswered_iff
    {tree : FileTree}
    {path : FilePath}
    {loaded : Loaded}
    (loads : load tree path = .ok loaded)
    {adapt : Mapping → Except Fault Mapping} :
    IsInputAnswered (readInput tree path adapt) ↔ IsAnswered (adapt loaded.entries >>= parse) := by
  unfold IsInputAnswered IsAnswered readInput
  rw [loads]
  dsimp only
  cases adapt loaded.entries >>= parse with
  | ok parsed =>
      simp
  | error fault =>
      simp [InputFault.isReported]

end Source

namespace Generation

/-- A run from a file ends with a report exactly if its input is answered and the run on what is
read of it ends with one. -/
theorem exists_report_iff
    {options : RunOptions}
    {time : String}
    {overrides : Overrides}
    {path : FilePath}
    {tree : FileTree} :
    (∃ report, ((generateFrom options time overrides path).inTree tree).1 = .ok report) ↔
      Source.IsInputAnswered (Source.readInput tree path (overridden overrides)) ∧
        ∀ parsed, Source.readInput tree path (overridden overrides) = .ok parsed →
          ∃ report,
            ((generate options time parsed
              ((Report.empty options.isDryRun).noteLoad parsed.document path)).inTree tree).1 =
                .ok report := by
  rw [inTree_generateFrom]
  unfold Source.IsInputAnswered
  cases Source.readInput tree path (overridden overrides) with
  | ok parsed =>
      simp
  | error fault =>
      by_cases reported : fault.isReported = true <;> simp [reported]

end Generation

namespace CommandLine

open Source

/-- The exit codes of a command. -/
def exitCodes : List Nat :=
  [successCode, validationCode, generationCode, exportCode, inputCode]

/-- A command that ends with one of the exit codes. -/
def EndsWithCode (result : Except RunFault Outcome × FileTree) : Prop :=
  ∃ outcome, result.1 = .ok outcome ∧ outcome.code ∈ exitCodes

theorem endsWithCode_iff_of_mem
    {result : Except RunFault Outcome × FileTree}
    (coded : ∀ outcome, result.1 = .ok outcome → outcome.code ∈ exitCodes) :
    EndsWithCode result ↔ ∃ outcome, result.1 = .ok outcome :=
  exists_congr fun outcome => and_iff_left_of_imp (coded outcome)

theorem reportCode_mem
    (report : Report) :
    reportCode report ∈ exitCodes := by
  unfold reportCode
  split_ifs <;> decide

section Modes

variable {tree : FileTree} {path : FilePath} {arguments : Arguments} {time : String}

theorem inTree_check
    (arguments : Arguments)
    (path : FilePath)
    (tree : FileTree) :
    (check arguments path).inTree tree =
      match readInput tree path (checkedDocument arguments) with
      | .ok parsed => (.ok (checkOutcome path parsed), tree)
      | .error fault =>
          if fault.isReported then (.ok (.silent inputCode), tree)
          else (.error (.input fault), tree) := by
  unfold check Run.inTree
  rw [run_get_bind]
  cases readInput tree path (checkedDocument arguments) with
  | ok parsed =>
      rfl
  | error fault =>
      dsimp only
      split <;> rfl

/-- A command that only checks ends exactly if its input is answered. -/
theorem exists_outcome_check_iff :
    (∃ outcome, ((check arguments path).inTree tree).1 = .ok outcome) ↔
      IsInputAnswered (readInput tree path (checkedDocument arguments)) := by
  rw [inTree_check]
  unfold IsInputAnswered
  cases readInput tree path (checkedDocument arguments) with
  | ok parsed =>
      exact iff_of_true ⟨_, rfl⟩ (by rintro _ ⟨⟩)
  | error fault =>
      by_cases reported : fault.isReported = true <;> simp [reported]

theorem code_mem_of_check
    (outcome : Outcome)
    (ends : ((check arguments path).inTree tree).1 = .ok outcome) :
    outcome.code ∈ exitCodes := by
  rw [inTree_check] at ends
  cases isRead : readInput tree path (checkedDocument arguments) with
  | ok parsed =>
      rw [isRead] at ends
      obtain rfl : checkOutcome path parsed = outcome := Except.ok.inj ends
      unfold checkOutcome Outcome.ofLines
      dsimp only
      split <;> decide
  | error fault =>
      rw [isRead] at ends
      dsimp only at ends
      split at ends
      · cases ends
        decide
      · cases ends

/-- A command that only checks ends with an exit code exactly if its input is answered. -/
theorem endsWithCode_check_iff :
    EndsWithCode ((check arguments path).inTree tree) ↔
      IsInputAnswered (readInput tree path (checkedDocument arguments)) :=
  (endsWithCode_iff_of_mem code_mem_of_check).trans exists_outcome_check_iff

/-- A generation shows the report of its run. -/
theorem inTree_generate
    (time : String)
    (arguments : Arguments)
    (path : FilePath)
    (tree : FileTree) :
    (generate time arguments path).inTree tree =
      match (generateFrom arguments.runOptions time arguments.overrides path).inTree tree with
      | (.ok report, left) => (.ok (.ofLines (reportCode report) [report.summary]), left)
      | (.error fault, left) => (.error fault, left) := by
  have inTurn :
      generate time arguments path =
        generateFrom arguments.runOptions time arguments.overrides path >>= fun report =>
          pure (.ofLines (reportCode report) [report.summary]) :=
    rfl
  rw [inTurn, Run.inTree_bind]
  rcases (generateFrom arguments.runOptions time arguments.overrides path).inTree tree with
    ⟨_ | _, _⟩ <;> rfl

/-- A generation ends exactly if its run ends with a report. -/
theorem exists_outcome_generate_iff :
    (∃ outcome, ((generate time arguments path).inTree tree).1 = .ok outcome) ↔
      ∃ report,
        ((generateFrom arguments.runOptions time arguments.overrides path).inTree tree).1 =
          .ok report := by
  rw [inTree_generate]
  rcases (generateFrom arguments.runOptions time arguments.overrides path).inTree tree with
    ⟨fault | report, left⟩
  · simp
  · exact iff_of_true ⟨_, rfl⟩ ⟨report, rfl⟩

/-- The exit code of a generation is the one that its report calls for. -/
theorem exists_report_of_generate
    {outcome : Outcome}
    (ends : ((generate time arguments path).inTree tree).1 = .ok outcome) :
    ∃ report,
      ((generateFrom arguments.runOptions time arguments.overrides path).inTree tree).1 =
          .ok report ∧
        outcome.code = reportCode report := by
  rw [inTree_generate] at ends
  rcases found : (generateFrom arguments.runOptions time arguments.overrides path).inTree tree with
    ⟨fault | report, left⟩ <;> rw [found] at ends
  · cases ends
  · cases ends
    exact ⟨report, rfl, rfl⟩

/-- A generation ends with an exit code exactly if it ends with a report. -/
theorem endsWithCode_generate_iff :
    EndsWithCode ((generate time arguments path).inTree tree) ↔
      ∃ report,
        ((generateFrom arguments.runOptions time arguments.overrides path).inTree tree).1 =
          .ok report := by
  refine (endsWithCode_iff_of_mem fun outcome ends => ?_).trans exists_outcome_generate_iff
  obtain ⟨report, -, isCode⟩ := exists_report_of_generate ends
  rw [isCode]
  exact reportCode_mem report

end Modes

section Loaded

variable {tree : FileTree} {path : FilePath} {loaded : Loaded}

theorem text_of_mem_settingsOverrides
    (arguments : Arguments) :
    ∀ entry ∈ arguments.settingsOverrides, ∃ key, entry.1 = .text key := by
  intro entry member
  obtain ⟨⟨key, value⟩, -, rfl⟩ := List.mem_map.mp member
  exact ⟨key, rfl⟩

/-- Neither mode changes whether a document is well-shaped. -/
theorem isWellShapedSource_checkedMetadata
    (arguments : Arguments)
    (raw : Mapping) :
    IsWellShapedSource (checkedMetadata arguments raw) ↔ IsWellShapedSource raw := by
  unfold checkedMetadata
  rcases metadataOverrides_eq_or arguments with none | ⟨provider, isProvider⟩
  · rw [none]
    rfl
  · rw [metadataOverrides_of_provider isProvider]
    exact (isWellShapedSource_congr (by decide) (sectionsAgree_overrideSection raw provider)).symm

theorem isWellShapedSource_generatedMetadata
    (arguments : Arguments)
    (raw : Mapping) :
    IsWellShapedSource (generatedMetadata arguments raw) ↔ IsWellShapedSource raw := by
  unfold generatedMetadata
  rcases metadataOverrides_eq_or arguments with none | ⟨provider, isProvider⟩
  · rw [none]
    rfl
  · rw [metadataOverrides_of_provider isProvider]
    exact (isWellShapedSource_congr (by decide) (sectionsAgree_overrideMetadata raw provider)).symm

/-- A document whose settings are changed, and then its metadata, is answered exactly if the change
of the settings can be made and the document is well-shaped. -/
theorem isAnswered_map_bind_parse_iff
    {raw : Mapping}
    {settingsChange : Except Fault Mapping}
    (silent : IsSilent settingsChange)
    (agree : ∀ adapted, settingsChange = .ok adapted → AgreeOutside ["config"] raw adapted)
    {change : Mapping → Mapping}
    (keeps : ∀ adapted, IsWellShapedSource (change adapted) ↔ IsWellShapedSource adapted) :
    IsAnswered (settingsChange.map change >>= parse) ↔
      (∃ adapted, settingsChange = .ok adapted) ∧ IsWellShapedSource raw := by
  rw [isAnswered_bind_parse_iff (silent.map change)]
  simp only [exceptMap_eq_ok_iff]
  constructor
  · rintro ⟨_, ⟨adapted, isAdapted, rfl⟩, shaped⟩
    refine ⟨⟨adapted, isAdapted⟩, ?_⟩
    rw [keeps] at shaped
    exact (isWellShapedSource_congr (by decide)
      (sectionsAgree_of_settings (agree adapted isAdapted))).mpr shaped
  · rintro ⟨⟨adapted, isAdapted⟩, shaped⟩
    refine ⟨_, ⟨adapted, isAdapted, rfl⟩, ?_⟩
    rw [keeps]
    exact (isWellShapedSource_congr (by decide)
      (sectionsAgree_of_settings (agree adapted isAdapted))).mp shaped

theorem isInputAnswered_check_iff
    (loads : load tree path = .ok loaded)
    (arguments : Arguments) :
    IsInputAnswered (readInput tree path (checkedDocument arguments)) ↔
      IsMergeable (configValue loaded.entries) ∧ IsWellShapedSource loaded.entries := by
  rw [isInputAnswered_iff loads, checkedDocument_eq_map,
    isAnswered_map_bind_parse_iff (isSilent_overrideSettings _ _)
      (fun _ => agreeOutside_overrideSettings) (isWellShapedSource_checkedMetadata arguments),
    exists_overrideSettings_iff (text_of_mem_settingsOverrides arguments)]

theorem exists_overridden_iff
    {overrides raw : Mapping}
    (texts : ∀ entry ∈ overrides, ∃ key, entry.1 = .text key) :
    (∃ adapted, overridden ⟨overrides, []⟩ raw = .ok adapted) ↔
      (overrides ≠ [] → IsMergeable (configValue raw)) := by
  rw [overridden_settings_eq, ← exists_overrideSettings_iff texts]
  by_cases nothing : overrides = [] <;> simp [nothing]

theorem isSilent_overridden
    (overrides raw : Mapping) :
    IsSilent (overridden ⟨overrides, []⟩ raw) := by
  rw [overridden_settings_eq]
  split
  · exact .ok raw
  · exact isSilent_overrideSettings overrides raw

theorem isInputAnswered_generate_iff
    (loads : load tree path = .ok loaded)
    (arguments : Arguments) :
    IsInputAnswered (readInput tree path (overridden arguments.overrides)) ↔
      (arguments.settingsOverrides ≠ [] → IsMergeable (configValue loaded.entries)) ∧
        IsWellShapedSource loaded.entries := by
  rw [isInputAnswered_iff loads, generatedDocument_eq_map,
    isAnswered_map_bind_parse_iff (isSilent_overridden _ _) (fun _ => agreeOutside_overridden)
      (isWellShapedSource_generatedMetadata arguments),
    exists_overridden_iff (text_of_mem_settingsOverrides arguments)]

/-- What is read of an input lets a run end with a report. -/
def ReportsWhatIsRead (tree : FileTree) (path : FilePath) (arguments : Arguments)
    (options : RunOptions) (time : String) : Prop :=
  ∀ parsed, Generates tree path arguments parsed →
    ∃ report,
      ((Generation.generate options time parsed
        ((Report.empty options.isDryRun).noteLoad parsed.document path)).inTree tree).1 = .ok report

/-- A document is read, or a fault of it is reported, exactly if it is well-shaped.  A run from a
file ends with a report, and a command with an exit code, exactly if besides the settings section
can be merged with overrides, where that is tried, and the run on what is read ends with a
report. -/
theorem answered_iff_wellShaped
    (loads : load tree path = .ok loaded)
    (arguments : Arguments)
    (time : String) :
    (∀ raw, IsAnswered (parse raw) ↔ IsWellShapedSource raw) ∧
      (∀ options,
        (∃ report,
            ((generateFrom options time arguments.overrides path).inTree tree).1 = .ok report) ↔
          ((arguments.settingsOverrides ≠ [] → IsMergeable (configValue loaded.entries)) ∧
            IsWellShapedSource loaded.entries) ∧
            ReportsWhatIsRead tree path arguments options time) ∧
      (EndsWithCode ((check arguments path).inTree tree) ↔
        IsMergeable (configValue loaded.entries) ∧ IsWellShapedSource loaded.entries) ∧
      (EndsWithCode ((generate time arguments path).inTree tree) ↔
        ((arguments.settingsOverrides ≠ [] → IsMergeable (configValue loaded.entries)) ∧
          IsWellShapedSource loaded.entries) ∧
          ReportsWhatIsRead tree path arguments arguments.runOptions time) := by
  have reports (options : RunOptions) :
      (∃ report,
          ((generateFrom options time arguments.overrides path).inTree tree).1 = .ok report) ↔
        ((arguments.settingsOverrides ≠ [] → IsMergeable (configValue loaded.entries)) ∧
          IsWellShapedSource loaded.entries) ∧
          ReportsWhatIsRead tree path arguments options time := by
    rw [exists_report_iff, isInputAnswered_generate_iff loads]
    rfl
  refine ⟨fun raw => isAnswered_parse_iff, reports, ?_, ?_⟩
  · rw [endsWithCode_check_iff, isInputAnswered_check_iff loads]
  · rw [endsWithCode_generate_iff, reports]

end Loaded

/-- A section with a provider that a flag overrides, and a setting in its plain spelling. -/
theorem answered_iff_wellShaped_sectionedContent :
    ∃ loaded, load (singleFile sectionedContent) singlePath = .ok loaded ∧
      IsWellShapedSource loaded.entries ∧
      EndsWithCode ((check providerArguments singlePath).inTree (singleFile sectionedContent)) := by
  have reads :
      ((load (singleFile sectionedContent) singlePath).toOption.bind fun loaded =>
        (parse loaded.entries).toOption.map fun parsed =>
          Decode.settings (settingsSection loaded.entries)) =
        some (.accepted { Settings.default with emitsSelect := true }) := by
    rw [load_singleFile]
    decide +kernel
  obtain ⟨loaded, isLoaded, inLoaded⟩ := Option.bind_eq_some_iff.mp reads
  obtain ⟨parsed, isParsed, accepted⟩ := Option.map_eq_some_iff.mp inLoaded
  have loads := eq_ok_of_toOption isLoaded
  obtain ⟨answered, -, checks, -⟩ := answered_iff_wellShaped loads providerArguments ""
  have shaped : IsWellShapedSource loaded.entries := by
    refine (answered loaded.entries).mp fun fault isFault => ?_
    rw [eq_ok_of_toOption isParsed] at isFault
    contradiction
  refine ⟨loaded, loads, shaped, checks.mpr ⟨?_, shaped⟩⟩
  exact isMergeable_of_spelled (isSpelledSection_of_accepted accepted)

/-- A document that lists a number as an operation mapping. -/
def numberedSource : Mapping :=
  [(.text "metadata", .object [("modelOperations", .list [.int 1])])]

/-- That the mapping is no object is not reported. -/
theorem not_isAnswered_numberedSource :
    ¬ IsAnswered (parse numberedSource) := by
  intro answered
  have isFault : parse numberedSource = .error .notRecord := by
    rfl
  have reported := answered .notRecord isFault
  contradiction

end CommandLine

end ZodSchemas
