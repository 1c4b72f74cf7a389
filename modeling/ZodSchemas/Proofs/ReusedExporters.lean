import ZodSchemas.Export.Session
import ZodSchemas.Proofs.ClosedTexts
import ZodSchemas.Proofs.ExportRecords

namespace ZodSchemas.Export

/-!
# Exporters that are used again

An exporter that has noted something in an earlier export reports that once more:
its errors, warnings and records stand in front of those that an exporter of its
own would have reported.  A manifest of the earlier records can also break an
export off that would not have been broken off otherwise.
-/

open FileTree Change

variable {tree : FileTree}

/-! ## The course of an export that keeps its notes -/

/-- An ending as it is seen from outside, where a fault hides what has been noted. -/
def Ending.thrown (ending : Ending) : Except FileFault Exporter :=
  match ending.fault? with
  | none => .ok ending.exporter
  | some fault => .error fault

/-- A change is gone on with in the tree that it leaves, by its result. -/
theorem run_outcome
    (change : Change α)
    (next : Except FileFault α → StateM FileTree β) :
    (change.run >>= next).run tree =
      (next (change.inTree tree).1).run (change.inTree tree).2 :=
  rfl

namespace Exporter

theorem run_endOf
    (exporter : Exporter)
    (step : Change Exporter) :
    (exporter.endOf step).run tree =
      match step.inTree tree with
      | (.ok later, left) => (⟨later, none⟩, left)
      | (.error fault, left) => (⟨exporter, some fault⟩, left) := by
  rw [endOf, run_outcome]
  rcases step.inTree tree with ⟨_ | _, left⟩ <;> rfl

theorem run_addEach_cons
    (exporter : Exporter)
    (file : RenderedFile)
    (rest : List RenderedFile) :
    (exporter.addEach (file :: rest)).run tree =
      match (exporter.addFile file).inTree tree with
      | (.ok added, left) => (added.addEach rest).run left
      | (.error fault, left) => (⟨exporter, some fault⟩, left) := by
  rw [addEach, StateT.run_bind, run_endOf]
  rcases (exporter.addFile file).inTree tree with ⟨_ | _, left⟩ <;> rfl

theorem run_addAll
    (exporter : Exporter)
    (files : List RenderedFile) :
    (exporter.addAll files).run tree =
      match (exporter.addEach files).run tree with
      | (⟨written, none⟩, left) =>
          if written.options.writesManifest then (written.endOf written.addManifest).run left
          else (⟨written, none⟩, left)
      | (⟨last, some fault⟩, left) => (⟨last, some fault⟩, left) := by
  rw [addAll, StateT.run_bind]
  rcases (exporter.addEach files).run tree with ⟨⟨written, _ | fault⟩, left⟩
  · dsimp only
    split
    · rename_i wanted
      change (if _ then _ else _ : StateM FileTree Ending).run left = _
      rw [if_pos wanted]
    · rename_i unwanted
      change (if _ then _ else _ : StateM FileTree Ending).run left = _
      rw [if_neg unwanted]
      rfl
  · rfl

theorem run_runKeeping
    (exporter : Exporter)
    (files : List RenderedFile) :
    (exporter.runKeeping files).run tree =
      match exporter.prepare.inTree tree with
      | (.error fault, left) =>
          (exporter.endOf (recover fault (exporter.addFatal fault))).run left
      | (.ok reports, left) =>
          match (ensureDirectory exporter.directory).inTree left with
          | (.error fault, left) =>
              ((exporter.addWarnings reports).endOf
                (recover fault ((exporter.addWarnings reports).addFatal fault))).run left
          | (.ok _, left) => ((exporter.addWarnings reports).addAll files).run left := by
  rw [runKeeping, run_outcome]
  rcases exporter.prepare.inTree tree with ⟨fault | reports, left⟩
  · rfl
  · have sameDirectory : (exporter.addWarnings reports).directory = exporter.directory :=
      rfl
    dsimp only
    rw [run_outcome, sameDirectory]
    rcases (ensureDirectory exporter.directory).inTree left with ⟨_ | _, left⟩ <;> rfl

theorem inTree_addFiles_eq_addEach
    (exporter : Exporter)
    (files : List RenderedFile) :
    (files.foldlM addFile exporter).inTree tree =
      (((exporter.addEach files).run tree).1.thrown, ((exporter.addEach files).run tree).2) := by
  induction files generalizing tree exporter with
  | nil =>
      rfl
  | cons file rest inductionHypothesis =>
      rw [List.foldlM_cons, inTree_bind, run_addEach_cons]
      rcases (exporter.addFile file).inTree tree with ⟨fault | added, left⟩
      · rfl
      · exact inductionHypothesis added

/-- An export that keeps its notes is an export. -/
theorem inTree_run_eq_runKeeping
    (exporter : Exporter)
    (files : List RenderedFile) :
    (exporter.run files).inTree tree =
      (((exporter.runKeeping files).run tree).1.thrown,
        ((exporter.runKeeping files).run tree).2) := by
  have ends (noted : Exporter) (step : Change Exporter) (left : FileTree) :
      step.inTree left =
        (((noted.endOf step).run left).1.thrown, ((noted.endOf step).run left).2) := by
    rw [run_endOf]
    rcases step.inTree left with ⟨_ | _, later⟩ <;> rfl
  have adds (noted : Exporter) (left : FileTree) :
      (noted.writeAll files).inTree left =
        (((noted.addAll files).run left).1.thrown, ((noted.addAll files).run left).2) := by
    rw [inTree_writeAll, run_addAll, inTree_addFiles_eq_addEach]
    rcases (noted.addEach files).run left with ⟨⟨written, _ | fault⟩, later⟩
    · dsimp only [Ending.thrown]
      split
      · exact ends _ _ _
      · rfl
    · rfl
  rw [inTree_run, run_runKeeping]
  rcases exporter.prepare.inTree tree with ⟨fault | reports, left⟩
  · exact ends _ _ _
  · dsimp only
    rcases (ensureDirectory exporter.directory).inTree left with ⟨fault | made, left⟩
    · exact ends _ _ _
    · exact adds _ _

end Exporter

/-! ## Notes of earlier exports -/

namespace Exporter

/-- The exporter with the notes of an earlier one in front of its own. -/
def behind (exporter earlier : Exporter) : Exporter :=
  { exporter with
    errors := earlier.errors ++ exporter.errors
    warnings := earlier.warnings ++ exporter.warnings
    records := earlier.records ++ exporter.records }

variable (exporter earlier : Exporter)

theorem behind_addRecord
    (record : Record) :
    (exporter.addRecord record).behind earlier = (exporter.behind earlier).addRecord record := by
  simp [behind, addRecord]

theorem behind_addError
    (error : String) :
    (exporter.addError error).behind earlier = (exporter.behind earlier).addError error := by
  simp [behind, addError]

theorem behind_addWarnings
    (warnings : List String) :
    (exporter.addWarnings warnings).behind earlier =
      (exporter.behind earlier).addWarnings warnings := by
  simp [behind, addWarnings]

theorem inTree_recover_behind
    (fault : FileFault) :
    (recover fault (exporter.behind earlier)).inTree tree =
      (((recover fault exporter).inTree tree).1.map (·.behind earlier),
        ((recover fault exporter).inTree tree).2) := by
  rw [inTree_recover, inTree_recover]
  cases fault.isRefused <;> rfl

/-- Earlier notes make no difference to what is written of a file, nor to what is noted. -/
theorem inTree_addFile_behind
    (file : RenderedFile) :
    ((exporter.behind earlier).addFile file).inTree tree =
      (((exporter.addFile file).inTree tree).1.map (·.behind earlier),
        ((exporter.addFile file).inTree tree).2) := by
  have sameWrite : (exporter.behind earlier).writeFile file = exporter.writeFile file :=
    rfl
  rw [addFile, addFile, inTree_bind, inTree_bind, inTree_attempt, inTree_attempt, sameWrite]
  rcases (exporter.writeFile file).inTree tree with ⟨fault | record, left⟩
  · dsimp only
    rw [← behind_addError, inTree_recover_behind]
  · dsimp only
    rw [← behind_addRecord]
    rfl

end Exporter

def Ending.behind (ending : Ending) (earlier : Exporter) : Ending :=
  ⟨ending.exporter.behind earlier, ending.fault?⟩

namespace Exporter

variable (exporter earlier : Exporter)

theorem run_addEach_behind
    (files : List RenderedFile) :
    ((exporter.behind earlier).addEach files).run tree =
      (((exporter.addEach files).run tree).1.behind earlier,
        ((exporter.addEach files).run tree).2) := by
  induction files generalizing tree exporter with
  | nil =>
      rfl
  | cons file rest inductionHypothesis =>
      rw [run_addEach_cons, run_addEach_cons, inTree_addFile_behind]
      rcases (exporter.addFile file).inTree tree with ⟨fault | added, left⟩
      · rfl
      · exact inductionHypothesis added

/-- Whether a file can be written in place does not depend on its bytes. -/
theorem fst_inTree_writeInPlace
    (path : FilePath)
    (bytes others : List UInt8) :
    ((writeInPlace path bytes).inTree tree).1 = ((writeInPlace path others).inTree tree).1 := by
  rw [inTree_writeInPlace, inTree_writeInPlace]
  rcases tree.locate .creation path with fault | ⟨place, _ | _ | _ | _⟩ <;> rfl

theorem fst_inTree_replaceFile
    (path : FilePath)
    (bytes others : List UInt8) :
    ((replaceFile path bytes).inTree tree).1 = ((replaceFile path others).inTree tree).1 := by
  rw [replaceFile, replaceFile, inTree_bind, inTree_bind, inTree_get]
  dsimp only
  cases replaceable? tree path with
  | none =>
      exact fst_inTree_writeInPlace path bytes others
  | some place =>
      rfl

/-- Whether a file can be written at all does not depend on its bytes. -/
theorem fst_inTree_write
    (replaces : Bool)
    (path : FilePath)
    (bytes others : List UInt8)
    (tree : FileTree) :
    ((if replaces then replaceFile path bytes else writeInPlace path bytes).inTree tree).1 =
      ((if replaces then replaceFile path others else writeInPlace path others).inTree tree).1 := by
  cases replaces with
  | false =>
      exact fst_inTree_writeInPlace path bytes others
  | true =>
      exact fst_inTree_replaceFile path bytes others

theorem fst_inTree_andPure
    (change : Change Unit)
    (value : α)
    (tree : FileTree) :
    ((change >>= fun _ => pure value).inTree tree).1 =
      (change.inTree tree).1.map fun _ => value := by
  rw [inTree_bind]
  rcases change.inTree tree with ⟨_ | _, left⟩ <;> rfl

/-- How a manifest is noted, by how it has been written. -/
def noted (exporter : Exporter) : Except FileFault Record → Except FileFault Exporter
  | .ok _ => .ok exporter
  | .error fault =>
      if fault.isRefused then
        .ok (exporter.addWarnings ["Could not write manifest: " ++ fault.message])
      else .error fault

theorem fst_inTree_addManifest :
    (exporter.addManifest.inTree tree).1 =
      exporter.noted ((exporter.writeFile exporter.manifest.file).inTree tree).1 := by
  rw [addManifest, inTree_bind, inTree_attempt]
  rcases (exporter.writeFile exporter.manifest.file).inTree tree with ⟨fault | record, left⟩
  · dsimp only
    rw [inTree_recover]
    rfl
  · rfl

/-- With earlier records a manifest may have no bytes where it would have some without them;
otherwise they make no difference to what is noted of it. -/
theorem fst_inTree_addManifest_behind
    (tree : FileTree) :
    ((exporter.behind earlier).addManifest.inTree tree).1 = .error .notUnicode ∨
      ((exporter.behind earlier).addManifest.inTree tree).1 =
        (exporter.addManifest.inTree tree).1.map (·.behind earlier) := by
  have samePath : (exporter.behind earlier).pathOf (exporter.behind earlier).manifest.file =
      exporter.pathOf exporter.manifest.file :=
    rfl
  have sameOptions : (exporter.behind earlier).options = exporter.options :=
    rfl
  have notedBehind (fault : FileFault) :
      (exporter.behind earlier).noted (.error fault) =
        (exporter.noted (.error fault)).map (·.behind earlier) := by
    rw [noted, noted]
    cases fault.isRefused with
    | false =>
        rfl
    | true =>
        rw [if_pos rfl, if_pos rfl, ← behind_addWarnings]
        rfl
  rw [fst_inTree_addManifest, fst_inTree_addManifest, writeFile_eq, writeFile_eq, samePath,
    sameOptions, inTree_bind, inTree_bind]
  rcases (ensureDirectory (exporter.pathOf exporter.manifest.file).parent).inTree tree with
    ⟨fault | made, left⟩
  · exact .inr (notedBehind fault)
  · dsimp only
    by_cases whole : Text.isWhole (exporter.behind earlier).manifest.file.content = true
    · have wholeToo : Text.isWhole exporter.manifest.file.content = true :=
        Manifest.isWhole_content_of_subset (List.subset_append_right _ _) whole
      rw [if_pos whole, if_pos wholeToo, fst_inTree_andPure, fst_inTree_andPure,
        fst_inTree_write _ _ _ (Text.encodeUtf8 exporter.manifest.file.content)]
      refine .inr ?_
      generalize (Change.inTree _ left).1 = written
      cases written with
      | error fault =>
          exact notedBehind fault
      | ok made =>
          rfl
    · rw [if_neg whole]
      exact .inl rfl

/-! ## Endings with earlier notes -/

/-- The ending of a step, by its result. -/
def ended (exporter : Exporter) : Except FileFault Exporter → Ending
  | .ok later => ⟨later, none⟩
  | .error fault => ⟨exporter, some fault⟩

theorem fst_run_endOf
    (step : Change Exporter) :
    ((exporter.endOf step).run tree).1 = exporter.ended (step.inTree tree).1 := by
  rw [run_endOf]
  rcases step.inTree tree with ⟨_ | _, left⟩ <;> rfl

theorem ended_behind
    (result : Except FileFault Exporter) :
    (exporter.behind earlier).ended (result.map (·.behind earlier)) =
      (exporter.ended result).behind earlier := by
  cases result <;> rfl

theorem yields_goesOnAs_addFile
    (file : RenderedFile) :
    Yields exporter.GoesOnAs (exporter.addFile file) :=
  (Yields.any _).bind fun result _ => by
    cases result with
    | ok record =>
        exact .pure ⟨rfl, rfl, rfl⟩
    | error fault =>
        exact yields_recover fault ⟨rfl, rfl, rfl⟩

theorem goesOnAs_endOf
    {step : Change Exporter}
    (yields : Yields exporter.GoesOnAs step) :
    exporter.GoesOnAs ((exporter.endOf step).run tree).1.exporter := by
  rw [run_endOf]
  rcases found : step.inTree tree with ⟨fault | later, left⟩
  · exact ⟨rfl, rfl, rfl⟩
  · exact yields tree later left found

theorem goesOnAs_addEach
    (files : List RenderedFile) :
    exporter.GoesOnAs ((exporter.addEach files).run tree).1.exporter := by
  induction files generalizing tree exporter with
  | nil =>
      exact ⟨rfl, rfl, rfl⟩
  | cons file rest inductionHypothesis =>
      rw [run_addEach_cons]
      rcases found : (exporter.addFile file).inTree tree with ⟨fault | added, left⟩
      · exact ⟨rfl, rfl, rfl⟩
      · exact (yields_goesOnAs_addFile exporter file tree added left found).trans
          (inductionHypothesis added)

end Exporter

/-- How an export with earlier notes ends, by how it would have ended without them: the earlier
notes remain in any case, and unless it is broken off nothing else is different. -/
structure Ending.Continues (exporter earlier : Exporter) (ending fresh : Ending) : Prop where
  keeps : ∃ noted, exporter.GoesOnAs noted ∧ ending.exporter = noted.behind earlier
  same : ending.fault? = none → ending = fresh.behind earlier

theorem Ending.continues_behind
    {exporter : Exporter}
    (earlier : Exporter)
    {ending : Ending}
    (goesOn : exporter.GoesOnAs ending.exporter) :
    (ending.behind earlier).Continues exporter earlier ending :=
  ⟨⟨ending.exporter, goesOn, rfl⟩, fun _ => rfl⟩

namespace Exporter

variable (exporter earlier : Exporter)

theorem addAll_continues
    (files : List RenderedFile)
    (tree : FileTree) :
    (((exporter.behind earlier).addAll files).run tree).1.Continues exporter earlier
      ((exporter.addAll files).run tree).1 := by
  have goesOn : exporter.GoesOnAs ((exporter.addEach files).run tree).1.exporter :=
    goesOnAs_addEach exporter files
  rw [run_addAll, run_addAll, run_addEach_behind]
  rcases added : (exporter.addEach files).run tree with ⟨⟨written, _ | fault⟩, left⟩ <;>
    rw [added] at goesOn
  · change (if written.options.writesManifest then
        ((written.behind earlier).endOf (written.behind earlier).addManifest).run left
      else (⟨written.behind earlier, none⟩, left)).1.Continues _ _ _
    dsimp only
    by_cases wanted : written.options.writesManifest = true
    · rw [if_pos wanted, if_pos wanted, fst_run_endOf, fst_run_endOf]
      rcases fst_inTree_addManifest_behind written earlier left with broken | same
      · rw [broken]
        exact ⟨⟨written, goesOn, rfl⟩, by simp [ended]⟩
      · rw [same, ended_behind, ← fst_run_endOf]
        have noted : Yields written.GoesOnAs written.addManifest :=
          yields_addManifest ⟨rfl, rfl, rfl⟩ fun _ => ⟨rfl, rfl, rfl⟩
        exact Ending.continues_behind earlier (goesOn.trans (goesOnAs_endOf written noted))
    · rw [if_neg wanted, if_neg wanted]
      exact Ending.continues_behind earlier goesOn
  · exact Ending.continues_behind earlier goesOn

theorem endOf_recover_continues
    (fault : FileFault)
    {noted : Exporter}
    (goesOn : exporter.GoesOnAs noted) :
    (((noted.behind earlier).endOf (recover fault ((noted.behind earlier).addFatal fault))).run
        tree).1.Continues exporter earlier
      ((noted.endOf (recover fault (noted.addFatal fault))).run tree).1 := by
  have fatal : (noted.behind earlier).addFatal fault = (noted.addFatal fault).behind earlier :=
    (behind_addError noted earlier _).symm
  rw [fst_run_endOf, fatal, inTree_recover_behind, ended_behind, ← fst_run_endOf]
  exact Ending.continues_behind earlier
    (goesOn.trans (goesOnAs_endOf noted (yields_recover fault ⟨rfl, rfl, rfl⟩)))

theorem runKeeping_continues
    (files : List RenderedFile) :
    (((exporter.behind earlier).runKeeping files).run tree).1.Continues exporter earlier
      ((exporter.runKeeping files).run tree).1 := by
  have samePrepare : (exporter.behind earlier).prepare = exporter.prepare :=
    rfl
  have sameDirectory : (exporter.behind earlier).directory = exporter.directory :=
    rfl
  rw [run_runKeeping, run_runKeeping, samePrepare, sameDirectory]
  rcases exporter.prepare.inTree tree with ⟨fault | reports, left⟩
  · exact endOf_recover_continues exporter earlier fault ⟨rfl, rfl, rfl⟩
  · dsimp only
    rw [← behind_addWarnings]
    rcases (ensureDirectory exporter.directory).inTree left with ⟨fault | made, left⟩
    · exact endOf_recover_continues exporter earlier fault ⟨rfl, rfl, rfl⟩
    · have warned : exporter.GoesOnAs (exporter.addWarnings reports) :=
        ⟨rfl, rfl, rfl⟩
      obtain ⟨⟨noted, goesOn, isNoted⟩, same⟩ :=
        addAll_continues (exporter.addWarnings reports) earlier files left
      exact ⟨⟨noted, warned.trans goesOn, isNoted⟩, same⟩

end Exporter

/-! ## One export after another -/

/-- A use of an exporter: the tree as it then is, the time, and the files. -/
structure Call where
  tree : FileTree
  time : String
  files : List RenderedFile

/-- How a call ends for an exporter. -/
def Call.ending (call : Call) (exporter : Exporter) : Ending :=
  (({ exporter with time := call.time }.runKeeping call.files).run call.tree).1

/-- What a call returns to the one who uses an exporter. -/
def Call.result? (call : Call) (exporter : Exporter) : Option Result :=
  (call.ending exporter).result?

namespace Exporter

/-- The exporter after some calls. -/
def after (exporter : Exporter) (calls : List Call) : Exporter :=
  calls.foldl (fun used call => (call.ending used).exporter) exporter

/-- Nothing has been noted. -/
structure HasNoNotes (exporter : Exporter) : Prop where
  errors : exporter.errors = []
  warnings : exporter.warnings = []
  records : exporter.records = []

/-- An exporter that has been made like another one. -/
structure IsMadeLike (exporter other : Exporter) : Prop where
  directory : exporter.directory = other.directory
  options : exporter.options = other.options

variable {used fresh : Exporter}

theorem hasNoNotes_behind_iff
    {noted : Exporter} :
    (noted.behind used).HasNoNotes ↔ used.HasNoNotes ∧ noted.HasNoNotes := by
  constructor
  · rintro ⟨errors, warnings, records⟩
    obtain ⟨noErrors, noErrorsToo⟩ := List.append_eq_nil_iff.mp errors
    obtain ⟨noWarnings, noWarningsToo⟩ := List.append_eq_nil_iff.mp warnings
    obtain ⟨noRecords, noRecordsToo⟩ := List.append_eq_nil_iff.mp records
    exact ⟨⟨noErrors, noWarnings, noRecords⟩, ⟨noErrorsToo, noWarningsToo, noRecordsToo⟩⟩
  · rintro ⟨none, noneToo⟩
    exact ⟨by simp [behind, none.errors, noneToo.errors],
      by simp [behind, none.warnings, noneToo.warnings],
      by simp [behind, none.records, noneToo.records]⟩

theorem HasNoNotes.behind_eq
    (none : used.HasNoNotes)
    (noted : Exporter) :
    noted.behind used = noted := by
  simp [behind, none.errors, none.warnings, none.records]

/-- An exporter that has been used is a fresh one with its notes. -/
theorem IsMadeLike.eq_behind
    (alike : used.IsMadeLike fresh)
    (none : fresh.HasNoNotes)
    (time : String) :
    { used with time := time } = { fresh with time := time }.behind used := by
  obtain ⟨directory, options, usedTime, errors, warnings, records⟩ := used
  obtain ⟨rfl, rfl⟩ := alike
  simp [behind, none.errors, none.warnings, none.records]

/-- A call of an exporter ends as one of a fresh exporter does, with the notes in front that the
exporter already has, unless they break it off. -/
theorem IsMadeLike.continues
    (alike : used.IsMadeLike fresh)
    (none : fresh.HasNoNotes)
    (call : Call) :
    (call.ending used).Continues { fresh with time := call.time } used (call.ending fresh) := by
  rw [Call.ending, alike.eq_behind none]
  exact runKeeping_continues _ used call.files

theorem IsMadeLike.ending
    (alike : used.IsMadeLike fresh)
    (none : fresh.HasNoNotes)
    (call : Call) :
    (call.ending used).exporter.IsMadeLike fresh := by
  obtain ⟨noted, goesOn, isNoted⟩ := (alike.continues none call).keeps
  rw [isNoted]
  exact ⟨goesOn.directory, goesOn.options⟩

/-- Without notes it makes no difference that an exporter has been used. -/
theorem IsMadeLike.ending_eq
    (alike : used.IsMadeLike fresh)
    (none : fresh.HasNoNotes)
    (noneYet : used.HasNoNotes)
    (call : Call) :
    call.ending used = call.ending fresh := by
  rw [Call.ending, alike.eq_behind none, noneYet.behind_eq]
  rfl

theorem IsMadeLike.after
    (alike : used.IsMadeLike fresh)
    (none : fresh.HasNoNotes)
    (calls : List Call) :
    (used.after calls).IsMadeLike fresh := by
  induction calls generalizing used with
  | nil =>
      exact alike
  | cons call rest inductionHypothesis =>
      exact inductionHypothesis (alike.ending none call)

/-- Nothing has been noted exactly if nothing would have been noted in any call of its own. -/
theorem IsMadeLike.hasNoNotes_after_iff
    (alike : used.IsMadeLike fresh)
    (none : fresh.HasNoNotes)
    (calls : List Call) :
    (used.after calls).HasNoNotes ↔
      used.HasNoNotes ∧ ∀ call ∈ calls, (call.ending fresh).exporter.HasNoNotes := by
  induction calls generalizing used with
  | nil =>
      simp [Exporter.after]
  | cons call rest inductionHypothesis =>
      have first : (call.ending used).exporter.HasNoNotes ↔
          used.HasNoNotes ∧ (call.ending fresh).exporter.HasNoNotes := by
        obtain ⟨noted, -, isNoted⟩ := (alike.continues none call).keeps
        constructor
        · intro noneThen
          have noneYet := (hasNoNotes_behind_iff.mp (isNoted ▸ noneThen)).1
          exact ⟨noneYet, alike.ending_eq none noneYet call ▸ noneThen⟩
        · rintro ⟨noneYet, noneThen⟩
          rwa [alike.ending_eq none noneYet call]
      change ((call.ending used).exporter.after rest).HasNoNotes ↔ _
      rw [inductionHypothesis (alike.ending none call), first, List.forall_mem_cons, and_assoc]

end Exporter

theorem Ending.Continues.result?_eq
    {exporter earlier : Exporter}
    {ending fresh : Ending}
    (continues : ending.Continues exporter earlier fresh)
    {result : Result}
    (returns : ending.result? = some result) :
    fresh.result? = some fresh.exporter.result ∧
      result = (fresh.exporter.behind earlier).result := by
  obtain ⟨last, _ | fault⟩ := ending
  · obtain ⟨sameExporter, sameFault⟩ := Ending.mk.inj (continues.same rfl)
    refine ⟨?_, ?_⟩
    · rw [result?, ← sameFault]
    · rw [← sameExporter, ← Option.some.inj returns]
  · contradiction

/-- Notes in front can be seen in what is returned. -/
theorem hasNoNotes_of_result_eq_behind
    {exporter used : Exporter}
    (same : exporter.result = (exporter.behind used).result) :
    used.HasNoNotes := by
  obtain ⟨-, sameManifest, sameErrors, sameWarnings⟩ := Result.mk.inj same
  obtain ⟨-, -, sameRecords⟩ := Manifest.mk.inj sameManifest
  exact ⟨List.self_eq_append_left.mp sameErrors, List.self_eq_append_left.mp sameWarnings,
    List.self_eq_append_left.mp sameRecords⟩

/-- After earlier calls an exporter returns what a fresh one would return, behind all that has been
noted in the earlier calls; this is the same only if nothing has been noted in any of them, or if
the fresh one would return nothing either. -/
theorem result?_after_eq_iff
    (directory : FilePath)
    (options : ExportOptions)
    (time : String)
    (earlier : List Call)
    (call : Call) :
    (∀ result, call.result? ((Exporter.start directory options time).after earlier) = some result →
        ∃ own, call.result? (.start directory options time) = some own ∧
          result.errors =
            ((Exporter.start directory options time).after earlier).errors ++ own.errors ∧
          result.warnings =
            ((Exporter.start directory options time).after earlier).warnings ++ own.warnings ∧
          result.manifest.records =
            ((Exporter.start directory options time).after earlier).records ++
              own.manifest.records) ∧
      (call.result? ((Exporter.start directory options time).after earlier) =
          call.result? (.start directory options time) ↔
        call.result? (.start directory options time) = none ∨
          ∀ other ∈ earlier,
            (other.ending (.start directory options time)).exporter.HasNoNotes) := by
  have none : (Exporter.start directory options time).HasNoNotes :=
    ⟨rfl, rfl, rfl⟩
  have itself :
      (Exporter.start directory options time).IsMadeLike (.start directory options time) :=
    ⟨rfl, rfl⟩
  have noNotes := itself.hasNoNotes_after_iff none earlier
  have continues := (itself.after none earlier).continues none call
  have unchanged (noneYet : ((Exporter.start directory options time).after earlier).HasNoNotes) :=
    (itself.after none earlier).ending_eq none noneYet call
  generalize (Exporter.start directory options time).after earlier = used at *
  refine ⟨fun result returns => ?_, fun same => ?_, ?_⟩
  · obtain ⟨ownReturns, rfl⟩ := continues.result?_eq returns
    exact ⟨_, ownReturns, rfl, rfl, rfl⟩
  · rw [or_iff_not_imp_left]
    intro returns
    obtain ⟨own, ownReturns⟩ := Option.ne_none_iff_exists'.mp returns
    obtain ⟨alsoReturns, isBehind⟩ := continues.result?_eq (same.trans ownReturns)
    have sameResult : (call.ending (.start directory options time)).exporter.result =
        ((call.ending (.start directory options time)).exporter.behind used).result :=
      (Option.some.inj (alsoReturns.symm.trans ownReturns)).trans isBehind
    exact (noNotes.mp (hasNoNotes_of_result_eq_behind sameResult)).2
  · rintro (returnsNothing | nothingNoted)
    · rw [returnsNothing]
      by_contra returns
      obtain ⟨result, isResult⟩ := Option.ne_none_iff_exists'.mp returns
      have ownReturns := (continues.result?_eq isResult).1
      rw [Call.result?] at returnsNothing
      rw [returnsNothing] at ownReturns
      contradiction
    · rw [Call.result?, Call.result?, unchanged (noNotes.mpr ⟨none, nothingNoted⟩)]

/-- An exporter below the root. -/
def rootExporter : Exporter :=
  .start (.fromRoot []) ⟨false, false, false⟩ ""

/-- An empty file. -/
def emptyFile : RenderedFile :=
  ⟨"a.ts", ""⟩

theorem isRooted_root
    {names : List String}
    (isName : names = [] ∨ names = ["a.ts"]) :
    (FilePath.fromRoot names).IsRooted := by
  rcases isName with rfl | rfl
  · exact FilePath.isRooted_of_descends (List.forall_mem_nil _)
  · refine FilePath.isRooted_of_descends (List.forall_mem_singleton.mpr ⟨?_, ?_⟩)
    · exact ⟨⟨by decide, by decide⟩, by decide, by decide⟩
    · exact (Text.isWholeText_of_ascii (by decide)).isText

/-- The file is noted as written where it can be written. -/
theorem runKeeping_emptyFile
    (plain : tree.IsPlain)
    (aimed : (tree.aim (.fromRoot ["a.ts"]) true).2 = .found ["a.ts"])
    {exporter : Exporter}
    (alike : exporter.IsMadeLike rootExporter) :
    ((exporter.runKeeping [emptyFile]).run tree).1 =
      ⟨exporter.addRecord (recordIn (.fromRoot []) emptyFile), none⟩ := by
  have isRoot : exporter.directory = .fromRoot [] :=
    alike.directory
  have options : exporter.options = ⟨false, false, false⟩ :=
    alike.options
  have path : exporter.pathOf emptyFile = .fromRoot ["a.ts"] := by
    rw [Exporter.pathOf, isRoot]
    decide
  have prepares : exporter.prepare.inTree tree = (.ok [], tree) := by
    rw [Exporter.inTree_prepare, options]
    rfl
  have makesRoot : (ensureDirectory (.fromRoot [])).inTree tree = (.ok (), tree) :=
    inTree_makeRoot (isRooted_root (.inl rfl)) (by decide)
  have adds : ((exporter.addFile emptyFile).inTree tree).1 =
      .ok (exporter.addRecord (recordIn (.fromRoot []) emptyFile)) := by
    obtain ⟨result, isAdded, ends⟩ := Exporter.inTree_addFile plain exporter emptyFile
      (path ▸ isRooted_root (.inr rfl))
    have whole : Text.isWhole emptyFile.content = true := by
      decide
    rw [path, whole, aimed] at ends
    cases ends
    rw [isAdded, path]
    rfl
  rw [Exporter.run_runKeeping, prepares]
  dsimp only
  rw [isRoot, makesRoot]
  dsimp only
  rw [Exporter.addWarnings_nil, Exporter.run_addAll, Exporter.run_addEach_cons]
  rcases found : (exporter.addFile emptyFile).inTree tree with ⟨_ | added, left⟩ <;>
    rw [found] at adds <;> cases adds
  have unwanted : ¬ exporter.options.writesManifest = true := by
    rw [options]
    decide
  change (if exporter.options.writesManifest then _ else _ : Ending × FileTree).1 = _
  rw [if_neg unwanted]

/-- The file is exported where nothing stands. -/
def firstCall : Call :=
  ⟨⟨[], []⟩, "", [emptyFile]⟩

/-- The file is exported over itself. -/
def secondCall : Call :=
  ⟨⟨[], [(["a.ts"], .file [])]⟩, "", [emptyFile]⟩

/-- Both exports are reported the second time. -/
theorem not_result?_after_eq :
    (secondCall.result? rootExporter).map (·.manifest.fileTotal) = some 1 ∧
      (secondCall.result? (rootExporter.after [firstCall])).map (·.manifest.fileTotal) =
        some 2 := by
  have itself : rootExporter.IsMadeLike rootExporter :=
    ⟨rfl, rfl⟩
  have none : rootExporter.HasNoNotes :=
    ⟨rfl, rfl, rfl⟩
  have again {exporter : Exporter} (alike : exporter.IsMadeLike rootExporter) :
      secondCall.ending exporter =
        ⟨{ exporter with time := "" }.addRecord (recordIn (.fromRoot []) emptyFile), .none⟩ :=
    runKeeping_emptyFile (isPlain_of_hasPlainEntries (by decide)) rfl
      ⟨alike.directory, alike.options⟩
  have first : firstCall.ending rootExporter =
      ⟨rootExporter.addRecord (recordIn (.fromRoot []) emptyFile), .none⟩ :=
    runKeeping_emptyFile (isPlain_of_hasPlainEntries (by decide)) rfl itself
  have used : rootExporter.after [firstCall] =
      rootExporter.addRecord (recordIn (.fromRoot []) emptyFile) :=
    congrArg Ending.exporter first
  rw [Call.result?, Call.result?, again itself, again (itself.after none [firstCall]), used]
  exact ⟨rfl, rfl⟩

end ZodSchemas.Export
