import Mathlib.Data.List.Forall2
import Mathlib.Data.List.Nodup
import ZodSchemas.Proofs.References
import ZodSchemas.SchemaUnit.Render

namespace ZodSchemas

/-!
# Names bound by modules

A module binds the libraries, the symbols that it imports, the constants of the
shared validator for arbitrary JSON where it needs them, a local constant in a
composite's module, and the symbol that it exports.  Every name but those of the
libraries ends in one word, so the libraries stand apart.  What a module defines
is different from each other by these endings as well, and only the symbols that
it imports are left to be compared.
-/

/-- A statement binds a name: it imports the name, or it defines it for the module or for others. -/
inductive Binds (name : String) : String → Prop where
  | imported (source : String) (typeOnly : Bool) :
      Binds name (Import.line ⟨name, source, typeOnly⟩)
  | defined
      {rest : String}
      (separated : rest.toList.head? = some ' ' ∨ rest.toList.head? = some ':') :
      Binds name ("const " ++ name ++ rest)
  | exported (definition : String) :
      Binds name ("export const " ++ name ++ " = " ++ definition)

/-- The words that statements with a name to bind begin with. -/
def bindingWords : List String :=
  ["import ", "const ", "export "]

/-- Whether a statement begins like one that binds a name. -/
def isBinding (statement : String) : Bool :=
  bindingWords.any fun word => word.toList.isPrefixOf statement.toList

/-- A text consists of statements, and those that begin like one that binds a name bind the given
names in their order. -/
def BindsInTurn (names : List String) (content : String) : Prop :=
  ∃ statements,
    content = joinLines statements ∧
      List.Forall₂ Binds names (statements.filter isBinding)

/-- The names of the constants that define the shared validator for arbitrary JSON. -/
def helperNames : List String :=
  ["literalSchema", jsonSymbol]

namespace SchemaUnit

/-- The names that a module imports from the libraries. -/
def libraryNames (unit : SchemaUnit) : List String :=
  "z" :: (if unit.needsHostTypes then ["Prisma"] else [])

/-- The symbols that a module imports from other modules. -/
def importedNames (unit : SchemaUnit) : List String :=
  unit.references.map Reference.symbol

/-- The names that a module defines. -/
def definedNames (unit : SchemaUnit) : List String :=
  (if unit.usesJson then helperNames else [])
    ++ (if unit.kind = .object then ["Schema"] else [])
    ++ [unit.exportName]

/-- The names that a module binds at its top level, in the order of its statements. -/
def boundNames (unit : SchemaUnit) : List String :=
  unit.libraryNames ++ unit.importedNames ++ unit.definedNames

end SchemaUnit

theorem isBinding_append
    {word : String}
    (binds : word ∈ bindingWords)
    (rest : String) :
    isBinding (word ++ rest) = true := by
  refine List.any_eq_true.mpr ⟨word, binds, List.isPrefixOf_iff_prefix.mpr ?_⟩
  rw [String.toList_append]
  exact List.prefix_append _ _

theorem isBinding_importLine
    (spec : Import) :
    isBinding spec.line = true := by
  have begins : ∃ rest, spec.line = "import " ++ rest := by
    unfold Import.line
    split
    · exact ⟨"type \x7b " ++ spec.symbol ++ " \x7d from '" ++ spec.source ++ "';", by
        simp [← String.toList_inj]⟩
    · exact ⟨"\x7b " ++ spec.symbol ++ " \x7d from '" ++ spec.source ++ "';", by
        simp [← String.toList_inj]⟩
  obtain ⟨rest, shape⟩ := begins
  rw [shape]
  exact isBinding_append (by decide) rest

/-- Every import binds its symbol. -/
theorem binds_importLines
    (specs : List Import) :
    List.Forall₂ Binds (specs.map Import.symbol) ((specs.map Import.line).filter isBinding) := by
  have allBind : ∀ line ∈ specs.map Import.line, isBinding line = true :=
    List.forall_mem_map.mpr fun spec _ => isBinding_importLine spec
  rw [List.filter_eq_self.mpr allBind, List.forall₂_map_left_iff, List.forall₂_map_right_iff,
    List.forall₂_same]
  exact fun spec _ => .imported spec.source spec.typeOnly

/-- The shared validator for arbitrary JSON binds its two constants. -/
theorem binds_jsonHelper :
    List.Forall₂ Binds helperNames (jsonHelper.filter isBinding) := by
  have statements :
      jsonHelper.filter isBinding =
        ["const literalSchema = z.union([z.string(), z.number(), z.boolean()]);",
          "const jsonSchema: z.ZodType<Prisma.InputJsonValue> = z.lazy(() =>"] := by
    decide +kernel
  rw [statements]
  have literals :
      Binds "literalSchema"
        ("const " ++ "literalSchema" ++ " = z.union([z.string(), z.number(), z.boolean()]);") :=
    .defined (.inl rfl)
  have values :
      Binds "jsonSchema"
        ("const " ++ "jsonSchema" ++ ": z.ZodType<Prisma.InputJsonValue> = z.lazy(() =>") :=
    .defined (.inr rfl)
  exact .cons literals (.cons values .nil)

namespace SchemaUnit

theorem head?_annotationText_append
    (unit : SchemaUnit)
    (rest : String) :
    (unit.annotationText ++ " = " ++ rest).toList.head? = some ' ' ∨
      (unit.annotationText ++ " = " ++ rest).toList.head? = some ':' := by
  unfold annotationText
  split
  · split <;> simp [String.toList_append]
  · simp [String.toList_append]

/-- The definition of a unit binds the symbol that it exports, and before it a local constant in the
module of a composite. -/
theorem binds_definition
    (unit : SchemaUnit)
    (body : String) :
    List.Forall₂ Binds ((if unit.kind = .object then ["Schema"] else []) ++ [unit.exportName])
      ((unit.definition body).filter isBinding) := by
  have exports (definition : String) :
      isBinding ("export const " ++ unit.exportName ++ " = " ++ definition) = true := by
    have word : "export const " = "export " ++ "const " := rfl
    rw [word, String.append_assoc, String.append_assoc, String.append_assoc]
    exact isBinding_append (by decide) _
  unfold definition
  split
  · have isConstant :
        "const Schema" ++ unit.annotationText ++ " = " ++ body ++ ";" =
          "const " ++ "Schema" ++ (unit.annotationText ++ " = " ++ (body ++ ";")) := by
      simp only [String.append_assoc]
      rfl
    have isExport :
        "export const " ++ unit.exportName ++ " = Schema;" =
          "export const " ++ unit.exportName ++ " = " ++ "Schema;" := by
      simp only [String.append_assoc]
      rfl
    have defines : isBinding ("const " ++ "Schema" ++
        (unit.annotationText ++ " = " ++ (body ++ ";"))) = true := by
      rw [String.append_assoc]
      exact isBinding_append (by decide) _
    rw [isConstant, isExport, List.filter_cons_of_pos defines,
      List.filter_cons_of_neg (by decide +kernel), List.filter_cons_of_pos (exports _),
      List.filter_nil]
    exact .cons (.defined (unit.head?_annotationText_append _)) (.cons (.exported _) .nil)
  · have isExport :
        "export const " ++ unit.exportName ++ " = " ++ body ++ ";" =
          "export const " ++ unit.exportName ++ " = " ++ (body ++ ";") :=
      String.append_assoc
    rw [isExport, List.filter_cons_of_pos (exports _), List.filter_nil]
    exact .cons (.exported _) .nil

theorem map_symbol_imports
    (workingDirectory : String)
    (context : Context)
    {unit : SchemaUnit}
    (noIndex : unit.kind ≠ .index) :
    (unit.imports workingDirectory context).map Import.symbol =
      unit.libraryNames ++ unit.importedNames := by
  rw [imports, if_neg noIndex, List.map_append, List.map_append, List.map_map, libraryNames]
  split <;> rfl

/-- The statements of a module bind its names in their order. -/
theorem binds_moduleLines
    (workingDirectory : String)
    (context : Context)
    {unit : SchemaUnit}
    (noIndex : unit.kind ≠ .index)
    (body : String) :
    List.Forall₂ Binds unit.boundNames
      ((unit.moduleLines workingDirectory context body).filter isBinding) := by
  have blank : [""].filter isBinding = [] := by
    decide +kernel
  have helper :
      List.Forall₂ Binds (if unit.usesJson then helperNames else [])
        ((if unit.usesJson then jsonHelper ++ [""] else []).filter isBinding) := by
    split
    · rw [List.filter_append, blank, List.append_nil]
      exact binds_jsonHelper
    · exact .nil
  have imported := binds_importLines (unit.imports workingDirectory context)
  rw [map_symbol_imports workingDirectory context noIndex] at imported
  rw [moduleLines, List.filter_append, List.filter_append, List.filter_append, blank,
    List.append_nil, boundNames, definedNames, List.append_assoc _ _ [unit.exportName],
    ← List.append_assoc]
  exact List.rel_append (List.rel_append imported helper) (unit.binds_definition body)

theorem suffix_exportName
    (unit : SchemaUnit) :
    "Schema".toList <:+ unit.exportName.toList := by
  unfold exportName
  split
  · exact List.IsSuffix.trans (by decide) (Text.suffix_append unit.name "ObjectSchema")
  · exact Text.suffix_append unit.name "Schema"
  · exact Text.suffix_append unit.name "Schema"
  · exact Text.suffix_append unit.name "Schema"

/-- Every name that is imported from another module, or defined, ends in one word. -/
theorem suffix_of_mem_names
    {unit : SchemaUnit}
    {name : String}
    (member : name ∈ unit.importedNames ++ unit.definedNames) :
    "Schema".toList <:+ name.toList := by
  rw [definedNames, List.mem_append, List.mem_append, List.mem_append, List.mem_singleton] at member
  rcases member with imported | (inHelper | isLocal) | isExport
  · obtain ⟨reference, -, rfl⟩ := List.mem_map.mp imported
    exact reference.suffix_symbol
  · split at inHelper
    · revert name
      decide
    · contradiction
  · split at isLocal
    · obtain rfl := List.mem_singleton.mp isLocal
      exact List.suffix_rfl
    · contradiction
  · exact isExport ▸ unit.suffix_exportName

theorem nodup_libraryNames
    (unit : SchemaUnit) :
    unit.libraryNames.Nodup := by
  unfold libraryNames
  split <;> decide

/-- No library is called like a schema. -/
theorem not_suffix_of_mem_libraryNames
    {unit : SchemaUnit}
    {name : String}
    (member : name ∈ unit.libraryNames) :
    ¬ "Schema".toList <:+ name.toList := by
  have ofLibraries : ∀ name ∈ ["z", "Prisma"], ¬ "Schema".toList <:+ name.toList := by
    decide
  refine ofLibraries name ?_
  unfold libraryNames at member
  split at member
  · exact member
  · rw [List.mem_singleton.mp member]
    exact .head _

/-- The names that a module defines are different, as only modules of composites define the shared
validator for arbitrary JSON. -/
theorem nodup_definedNames
    {unit : SchemaUnit}
    (helperInObjects : unit.usesJson = true → unit.kind = .object) :
    unit.definedNames.Nodup := by
  unfold definedNames
  by_cases isObject : unit.kind = .object
  · have ends : "ObjectSchema".toList <:+ unit.exportName.toList := by
      rw [exportName, isObject]
      exact Text.suffix_append unit.name "ObjectSchema"
    have fixedApart (names : List String)
        (apart : names.Nodup)
        (unended : ∀ name ∈ names, ¬ "ObjectSchema".toList <:+ name.toList) :
        (names ++ [unit.exportName]).Nodup := by
      rw [← List.concat_eq_append, List.nodup_concat]
      exact ⟨fun member => unended _ member ends, apart⟩
    rw [if_pos isObject]
    split
    · exact fixedApart _ (by decide) (by decide)
    · exact fixedApart _ (by decide) (by decide)
  · have noHelper : unit.usesJson = false := by
      simpa using mt helperInObjects isObject
    simp [isObject, noHelper]

/-- What a module binds is distinct exactly when the symbols that it imports are, and none of them
is a name that it defines. -/
theorem nodup_boundNames_iff
    {unit : SchemaUnit}
    (helperInObjects : unit.usesJson = true → unit.kind = .object) :
    unit.boundNames.Nodup ↔
      unit.importedNames.Nodup ∧ ∀ name ∈ unit.importedNames, name ∉ unit.definedNames := by
  have librariesApart :
      ∀ name ∈ unit.libraryNames, name ∉ unit.importedNames ++ unit.definedNames :=
    fun name library named =>
      not_suffix_of_mem_libraryNames library (suffix_of_mem_names named)
  rw [boundNames, List.append_assoc, List.nodup_append', List.nodup_append']
  constructor
  · rintro ⟨-, ⟨imported, -, apart⟩, -⟩
    exact ⟨imported, apart⟩
  · rintro ⟨imported, apart⟩
    exact ⟨unit.nodup_libraryNames,
      ⟨imported, nodup_definedNames helperInObjects, apart⟩, librariesApart⟩

end SchemaUnit

end ZodSchemas
