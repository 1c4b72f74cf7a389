import ZodSchemas.Proofs.NormalPaths
import ZodSchemas.Proofs.Projections
import ZodSchemas.Proofs.UnitCollisions

namespace ZodSchemas

/-!
# Confinement of the output

The paths of a compiled document are joined to the schemas directory when they
are written.  Operations, projections, renamed composites and the index stay
below it, since the checks of a document make models identifiers.  The names of
enumerations and of declared composites are not checked, so their modules stay
below it exactly if the paths that these names make come back to it.
-/

namespace Reference

/-- The path of the module of the referenced schema, below the schemas directory. -/
def path (reference : Reference) : String :=
  reference.stem ++ ".ts"

/-- The directory of the module of the referenced schema. -/
def directories (reference : Reference) : List String :=
  match reference.kind with
  | .object => ["objects"]
  | .enumeration => ["enums"]
  | .operation => []

theorem segments_path
    (reference : Reference) :
    Path.segments reference.path =
      reference.directories ++ Path.segments (reference.name ++ ".schema.ts") := by
  obtain ⟨name, kind⟩ := reference
  have inDirectory (directory : String) :
      directory ++ "/" ++ name ++ ".schema" ++ ".ts" =
        directory ++ "/" ++ (name ++ ".schema.ts") := by
    simp [String.append_assoc]
  cases kind with
  | object =>
      change Path.segments ("objects" ++ "/" ++ name ++ ".schema" ++ ".ts") = _
      rw [inDirectory, Path.segments_append_slash]
      rfl
  | enumeration =>
      change Path.segments ("enums" ++ "/" ++ name ++ ".schema" ++ ".ts") = _
      rw [inDirectory, Path.segments_append_slash]
      rfl
  | operation =>
      change Path.segments (name ++ ".schema" ++ ".ts") = _
      rw [String.append_assoc]
      rfl

/-- The modules of enumerations and composites stand in a directory. -/
theorem exists_mem_segments_path
    {reference : Reference}
    (noOperation : reference.kind ≠ .operation) :
    ∃ directory ∈ Path.segments reference.path, directory ≠ "." := by
  rw [segments_path]
  obtain ⟨name, kind⟩ := reference
  cases kind with
  | object =>
      exact ⟨"objects", .head _, by decide⟩
  | enumeration =>
      exact ⟨"enums", .head _, by decide⟩
  | operation =>
      contradiction

theorem isAbsolute_path
    {reference : Reference}
    (plain : reference.kind = .operation → '/' ∉ reference.name.toList) :
    Path.isAbsolute reference.path = false := by
  obtain ⟨name, kind⟩ := reference
  cases kind with
  | object | enumeration =>
      simp [Path.isAbsolute, path, stem, String.toList_append]
  | operation =>
      rw [← Bool.not_eq_true, Path.isAbsolute_iff]
      rintro ⟨rest, shape⟩
      have inPath : '/' ∈ (path ⟨name, .operation⟩).toList := shape ▸ .head _
      have noSlash : '/' ∉ (path ⟨name, .operation⟩).toList := by
        simpa [path, stem, String.toList_append] using plain rfl
      exact noSlash inPath

/-- A name without a slash leads nowhere but down. -/
theorem leadsBack_of_plain
    (directory : String)
    {reference : Reference}
    (plain : '/' ∉ reference.name.toList) :
    Path.LeadsBack directory reference.path := by
  have ends := Text.suffix_append reference.name ".schema.ts"
  have apart (other : String) (short : ¬ ".schema.ts".toList <:+ other.toList) :
      reference.name ++ ".schema.ts" ≠ other :=
    fun same => short (same ▸ ends)
  have isSegment : Path.IsSegment (reference.name ++ ".schema.ts") :=
    ⟨apart "" (by decide), by simpa using plain⟩
  have segments :
      Path.segments reference.path =
        reference.directories ++ [reference.name ++ ".schema.ts"] := by
    rw [segments_path, Path.segments_of_isSegment isSegment]
  refine Path.leadsBack_of_up_not_mem directory ?_
    (segments ▸ List.mem_append_right _ (.head _)) (apart "." (by decide))
  rw [segments, List.mem_append, List.mem_singleton, not_or]
  refine ⟨?_, (apart ".." (by decide)).symm⟩
  unfold directories
  split <;> decide

end Reference

namespace Assembly

open Metadata

/-- Every file lies below the schemas directory once it is joined to it. -/
def Confined (context : Context) (files : List (String × String)) : Prop :=
  ∀ file ∈ files,
    Path.LiesBelow context.schemasPath (Path.join context.schemasPath file.1)

/-- The references that enumerations and declared composites answer to. -/
def declaredReferences (context : Context) (document : Document) : List Reference :=
  document.enumNames.map (⟨·, .enumeration⟩)
    ++ document.composites.map (⟨compositeUnitName context ·.name, .object⟩)

/-- The paths of a compiled document are those of its planned references and of the index. -/
theorem mem_keys_of_compile
    (workingDirectory : String)
    (settings : Settings)
    {document : Document}
    (sound : Check.Sound document) :
    ∃ files,
      compile workingDirectory settings document = .ok files ∧
        ∀ path, path ∈ files.map Prod.fst ↔
          (∃ reference,
            Planned (.build settings document) document reference ∧ reference.path = path) ∨
            path = "index.ts" := by
  obtain ⟨files, compiled, keys⟩ := keys_of_compile workingDirectory settings sound
  refine ⟨files, compiled, fun path => ?_⟩
  have paths :
      (plannedUnits (.build settings document) document).map SchemaUnit.path =
        (plannedReferences (.build settings document) document).map Reference.path :=
    map_eq_map_of_answers (map_asReference?_plannedUnits sound.firstMappedModelsKnown)
      SchemaUnit.path_of_asReference
  rw [keys, paths, List.mem_append, mem_distinct, List.mem_map, List.mem_singleton]
  simp only [mem_plannedReferences]

/-- What is planned without being declared has a name without a slash. -/
theorem declared_or_plain_of_planned
    {settings : Settings}
    {document : Document}
    (sound : Check.Sound document)
    {reference : Reference}
    (planned : Planned (.build settings document) document reference) :
    reference ∈ declaredReferences (.build settings document) document ∨
      '/' ∉ reference.name.toList := by
  cases planned with
  | enumeration declared =>
      exact .inl (List.mem_append_left _ (List.mem_map_of_mem declared))
  | @composite composite merged =>
      rcases mem_or_mem_of_mem_mergeComposites merged with declared | projected
      · exact .inl (List.mem_append_right _ (List.mem_map.mpr ⟨_, declared, rfl⟩))
      · obtain ⟨model, modelMember, projection⟩ := mem_projections projected
        have modelPlain : '/' ∉ model.name.toList :=
          Text.slash_not_mem_of_isIdentifier (sound.modelsAreIdentifiers model modelMember)
        exact .inr (slash_not_mem_compositeUnitName
          (fun mapping member => sound.slash_not_mem_of_mapped member)
          (projection.slash_not_mem modelPlain))
  | operation first supported =>
      exact .inr (slash_not_mem_operationUnitName
        (sound.slash_not_mem_of_mapped (mem_of_mem_firstMappings first)) _)

theorem planned_of_declared
    {context : Context}
    {document : Document}
    {reference : Reference}
    (declared : reference ∈ declaredReferences context document) :
    Planned context document reference := by
  rcases List.mem_append.mp declared with isEnum | isComposite
  · obtain ⟨name, member, rfl⟩ := List.mem_map.mp isEnum
    exact .enumeration member
  · obtain ⟨composite, member, rfl⟩ := List.mem_map.mp isComposite
    exact .composite (mem_mergeComposites_of_declared member)

theorem kind_ne_operation_of_declared
    {context : Context}
    {document : Document}
    {reference : Reference}
    (declared : reference ∈ declaredReferences context document) :
    reference.kind ≠ .operation := by
  rcases List.mem_append.mp declared with isEnum | isComposite
  · obtain ⟨name, -, rfl⟩ := List.mem_map.mp isEnum
    exact nofun
  · obtain ⟨composite, -, rfl⟩ := List.mem_map.mp isComposite
    exact nofun

/-- Whether a declared reference stays below the schemas directory depends on its path alone. -/
theorem liesBelow_iff_of_declared
    {context : Context}
    {document : Document}
    {reference : Reference}
    (declared : reference ∈ declaredReferences context document) :
    Path.LiesBelow context.schemasPath (Path.join context.schemasPath reference.path) ↔
      Path.LeadsBack context.schemasPath reference.path :=
  Path.liesBelow_join_iff
    (Reference.isAbsolute_path fun isOperation =>
      absurd isOperation (kind_ne_operation_of_declared declared))

theorem liesBelow_of_plain
    (directory : String)
    {reference : Reference}
    (plain : '/' ∉ reference.name.toList) :
    Path.LiesBelow directory (Path.join directory reference.path) :=
  (Path.liesBelow_join_iff (Reference.isAbsolute_path fun _ => plain)).mpr
    (Reference.leadsBack_of_plain directory plain)

theorem liesBelow_index
    (directory : String) :
    Path.LiesBelow directory (Path.join directory "index.ts") := by
  have member : "index.ts" ∈ Path.segments "index.ts" := by
    decide
  have staysDown : ".." ∉ Path.segments "index.ts" := by
    decide
  exact (Path.liesBelow_join_iff (by decide)).mpr
    (Path.leadsBack_of_up_not_mem directory staysDown member (by decide))

/-- A document without errors compiles, and its files stay below the schemas directory exactly if
the paths of its enumerations and declared composites come back to it.  They do where none of these
paths has a segment that leads up. -/
theorem confined_iff_declared_leadsBack
    (workingDirectory : String)
    (settings : Settings)
    (document : Document)
    (noErrors : (Check.full settings document).hasErrors = false) :
    ∃ files,
      compile workingDirectory settings document = .ok files ∧
        (Confined (.build settings document) files ↔
          ∀ reference ∈ declaredReferences (.build settings document) document,
            Path.LeadsBack (Context.build settings document).schemasPath reference.path) ∧
        ((∀ reference ∈ declaredReferences (.build settings document) document,
            ".." ∉ Path.segments reference.path) →
          Confined (.build settings document) files) := by
  have sound := Check.sound_of_full noErrors
  obtain ⟨files, compiled, keys⟩ := mem_keys_of_compile workingDirectory settings sound
  have confined :
      Confined (.build settings document) files ↔
        ∀ reference ∈ declaredReferences (.build settings document) document,
          Path.LeadsBack (Context.build settings document).schemasPath reference.path := by
    constructor
    · intro below reference declared
      obtain ⟨file, member, isPath⟩ :=
        List.mem_map.mp ((keys reference.path).mpr (.inl ⟨_, planned_of_declared declared, rfl⟩))
      exact (liesBelow_iff_of_declared declared).mp (isPath ▸ below file member)
    · intro back file member
      rcases (keys file.1).mp (List.mem_map_of_mem member) with
        ⟨reference, planned, isPath⟩ | isIndex
      · rw [← isPath]
        rcases declared_or_plain_of_planned sound planned with declared | plain
        · exact (liesBelow_iff_of_declared declared).mpr (back reference declared)
        · exact liesBelow_of_plain _ plain
      · rw [isIndex]
        exact liesBelow_index _
  refine ⟨files, compiled, confined, fun staysDown => confined.mpr fun reference declared => ?_⟩
  obtain ⟨directory, member, notHere⟩ :=
    Reference.exists_mem_segments_path (kind_ne_operation_of_declared declared)
  exact Path.leadsBack_of_up_not_mem _ (staysDown reference declared) member notHere

/-- An enumeration in a directory of its own, and a composite that refers to it. -/
def nestedEnumeration : Document where
  provider := .postgresql
  previewFeatures := []
  models := [⟨"User", [⟨"role", .enumeration, "admin/Role", false, true⟩]⟩]
  enums := [⟨"admin/Role", ["READER", "WRITER"]⟩]
  composites :=
    [⟨"UserWhereInput", [⟨"role", false, false, [⟨"admin/Role", false, .enumTypes, none⟩]⟩]⟩]
  mappings := [⟨"User", [.deleteMany], []⟩]
  aggregateSupport := none

theorem confined_iff_declared_leadsBack_nestedEnumeration :
    (Check.full .default nestedEnumeration).hasErrors = false ∧
      (∀ reference ∈ declaredReferences (.build .default nestedEnumeration) nestedEnumeration,
        ".." ∉ Path.segments reference.path) ∧
      ∃ files,
        compile "/work" .default nestedEnumeration = .ok files ∧
          Confined (.build .default nestedEnumeration) files := by
  have noErrors : (Check.full .default nestedEnumeration).hasErrors = false := by
    decide +kernel
  have staysDown :
      ∀ reference ∈ declaredReferences (.build .default nestedEnumeration) nestedEnumeration,
        ".." ∉ Path.segments reference.path := by
    decide +kernel
  obtain ⟨files, compiled, -, confined⟩ :=
    confined_iff_declared_leadsBack "/work" .default nestedEnumeration noErrors
  exact ⟨noErrors, staysDown, files, compiled, confined staysDown⟩

/-- An enumeration whose name leads out of the schemas directory. -/
def strayEnumeration : Document where
  provider := .postgresql
  previewFeatures := []
  models := []
  enums := [⟨"../../evil", ["A"]⟩]
  composites := []
  mappings := []
  aggregateSupport := none

/-- Its module is written beside the schemas directory, and no check reports it. -/
theorem not_confined_strayEnumeration :
    Check.full .default strayEnumeration = [] ∧
      ∃ files,
        compile "/work" .default strayEnumeration = .ok files ∧
          "enums/../../evil.schema.ts" ∈ files.map Prod.fst ∧
          Path.normalize
              (Path.join (Context.build .default strayEnumeration).schemasPath
                "enums/../../evil.schema.ts") =
            "generated/evil.schema.ts" ∧
          ¬ Confined (.build .default strayEnumeration) files := by
  have noFindings : Check.full .default strayEnumeration = [] := by
    decide +kernel
  have sound : Check.Sound strayEnumeration :=
    Check.sound_of_full (by rw [noFindings]; rfl)
  obtain ⟨files, compiled, keys⟩ := mem_keys_of_compile "/work" .default sound
  have member : "enums/../../evil.schema.ts" ∈ files.map Prod.fst :=
    (keys _).mpr (.inl ⟨⟨"../../evil", .enumeration⟩, .enumeration (.head _), by decide +kernel⟩)
  refine ⟨noFindings, files, compiled, member, by decide +kernel, fun confined => ?_⟩
  obtain ⟨file, fileMember, isPath⟩ := List.mem_map.mp member
  obtain ⟨-, below, -, -, continued⟩ := confined file fileMember
  have directory :
      Path.normalNames (Context.build .default strayEnumeration).schemasPath =
        ["generated", "schemas"] := by
    decide +kernel
  have joined :
      Path.normalNames
          (Path.join (Context.build .default strayEnumeration).schemasPath
            "enums/../../evil.schema.ts") =
        ["generated", "evil.schema.ts"] := by
    decide +kernel
  rw [isPath, directory, joined] at continued
  simp at continued

end Assembly

end ZodSchemas
