import ZodSchemas.Generation.Run
import ZodSchemas.Proofs.SecondReading

namespace ZodSchemas

/-!
# Reading an input

An input is loaded, adapted and parsed, and each of the three has to succeed.
What is parsed depends on the metadata section and on the settings section alone.
-/

open Data

theorem eq_ok_of_toOption
    {result : Except ε α}
    {value : α}
    (found : result.toOption = some value) :
    result = .ok value := by
  cases result with
  | ok other =>
      exact congrArg _ (Option.some.inj found)
  | error fault =>
      contradiction

namespace Source

theorem parse_eq_ok_iff
    {raw : Mapping}
    {parsed : Parsed} :
    parse raw = .ok parsed ↔
      ∃ data, metadataSection? raw = some data ∧ parseMetadata data = .ok parsed.document ∧
        Decode.settings (settingsSection raw) = .accepted parsed.settings := by
  unfold parse
  cases metadataSection? raw with
  | none =>
      simp
  | some data =>
      simp only [bind_eq_ok_iff, accept_eq_ok_iff]
      constructor
      · rintro ⟨document, isDocument, settings, areSettings, ⟨⟩⟩
        exact ⟨data, rfl, isDocument, areSettings⟩
      · rintro ⟨_, ⟨⟩, isDocument, areSettings⟩
        exact ⟨_, isDocument, _, areSettings, rfl⟩

theorem parse_congr
    {raw other : Mapping}
    (sameSection : metadataSection? raw = metadataSection? other)
    (sameSettings : settingsSection raw = settingsSection other) :
    parse raw = parse other := by
  rw [parse, parse, sameSection, sameSettings]

theorem readInput_eq_ok_iff
    {tree : FileTree}
    {path : FilePath}
    {adapt : Mapping → Except Fault Mapping}
    {parsed : Parsed} :
    readInput tree path adapt = .ok parsed ↔
      ∃ loaded, load tree path = .ok loaded ∧
        ∃ adapted, adapt loaded.entries = .ok adapted ∧ parse adapted = .ok parsed := by
  unfold readInput
  cases load tree path with
  | error fault =>
      simp
  | ok loaded =>
      simp only [Except.ok.injEq, exists_eq_left', ← bind_eq_ok_iff]
      cases adapt loaded.entries >>= parse <;> simp

/-- A tree with nothing but one document at its root. -/
def singleFile (content : String) : FileTree :=
  ⟨[], [(["doc.json"], .file (Text.encodeUtf8 content))]⟩

/-- The path to the only document of such a tree. -/
def singlePath : FilePath :=
  .ofText "doc.json"

theorem follow_singleFile
    (content : String)
    (access : FileTree.Access)
    (links : Nat) :
    (singleFile content).follow access links [] ["doc.json"] =
      .ok ⟨["doc.json"], some (.file (Text.encodeUtf8 content))⟩ := by
  have short : ¬ FileTree.nameLimit < Text.nameSize "doc.json" := by
    decide
  rw [FileTree.follow, if_neg (by decide), if_neg (by decide), if_neg (by simp), if_neg short]
  rfl

theorem locate_singleFile
    (content : String)
    (access : FileTree.Access) :
    (singleFile content).locate access singlePath =
      .ok ⟨["doc.json"], some (.file (Text.encodeUtf8 content))⟩ := by
  have names : singlePath.names = ["doc.json"] := by
    decide
  have atRoot : (singleFile content).startOf singlePath = [] :=
    rfl
  rw [FileTree.locate, if_neg (by decide), if_neg (by decide), if_neg (by decide), names, atRoot,
    follow_singleFile]

/-- A file is read as its extension says. -/
theorem load_of_located
    {tree : FileTree}
    {path : FilePath}
    {place : Place}
    {bytes : List UInt8}
    (located : tree.locate .target path = .ok ⟨place, some (.file bytes)⟩) :
    load tree path = readAs path.fileType path.text bytes := by
  have found : tree.entryAt path = .ok (some (.file bytes)) := by
    rw [FileTree.entryAt, located]
  have content : tree.readBytes path = .ok bytes := by
    rw [FileTree.readBytes, located]
    rfl
  rw [load, FileTree.isPresent, FileTree.isFile, found, content]
  generalize readAs path.fileType path.text = read
  rfl

/-- The document of such a tree is read as JSON. -/
theorem load_singleFile
    (content : String) :
    load (singleFile content) singlePath = readJson "doc.json" (Text.encodeUtf8 content) := by
  have fileType : singlePath.fileType = ".json" := by
    decide +kernel
  have text : singlePath.text = "doc.json" := by
    decide
  rw [load_of_located (locate_singleFile content .target), fileType, text, readAs,
    if_neg (by decide), if_pos rfl]

end Source

namespace Generation

/-- A step of a run that reads the file tree. -/
theorem run_get_bind
    (next : FileTree → Run α)
    (tree : FileTree) :
    (get >>= next).run.run tree = (next tree).run.run tree :=
  rfl

/-- Where its input can be read, a run goes on with what was read. -/
theorem generateFrom_of_readInput
    {tree : FileTree}
    {path : FilePath}
    {overrides : Overrides}
    {parsed : Source.Parsed}
    (isRead : Source.readInput tree path (overridden overrides) = .ok parsed)
    (options : RunOptions)
    (time : String) :
    (generateFrom options time overrides path).run.run tree =
      (generate options time parsed
        ((Report.empty options.isDryRun).noteLoad parsed.document path)).run.run tree := by
  unfold generateFrom
  dsimp only
  rw [run_get_bind, isRead]

end Generation

end ZodSchemas
