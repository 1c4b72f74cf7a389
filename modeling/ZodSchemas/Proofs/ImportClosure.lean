import ZodSchemas.Proofs.DanglingReferences
import ZodSchemas.Proofs.Paths
import ZodSchemas.Proofs.References
import ZodSchemas.Proofs.Rendering
import ZodSchemas.Proofs.Projections

namespace ZodSchemas

/-!
# Closure under imports

Every schema that a generated module imports is generated: the specifier leads
from the directory of the module to the file of a planned unit, and the text of
that file exports the imported symbol.  A file may be written for several units
of one path, but units of one path answer to one reference.
-/

open Metadata

namespace Reference

/-- The segments of the place of a reference's module. -/
def places (reference : Reference) : List String :=
  match reference.kind with
  | .object => ["objects", reference.name ++ ".schema"]
  | .enumeration => ["enums", reference.name ++ ".schema"]
  | .operation => [reference.name ++ ".schema"]

theorem stem_eq_intercalate
    (reference : Reference) :
    reference.stem = "/".intercalate reference.places := by
  obtain ⟨name, kind⟩ := reference
  cases kind <;> simp [stem, places, String.append_assoc]

/-- The segments of a stem lead down, as long as the name has no slash. -/
theorem descends_of_mem_places
    {reference : Reference}
    (plain : '/' ∉ reference.name.toList) :
    ∀ name ∈ reference.places, Path.Descends name := by
  have ends := Text.suffix_append reference.name ".schema"
  have apart (other : String) (short : ¬ ".schema".toList <:+ other.toList) :
      reference.name ++ ".schema" ≠ other :=
    fun same => short (same ▸ ends)
  have noSlash : '/' ∉ (reference.name ++ ".schema").toList := by
    simpa using plain
  have last : Path.Descends (reference.name ++ ".schema") :=
    ⟨⟨apart "" (by decide), noSlash⟩, apart "." (by decide), apart ".." (by decide)⟩
  have directories : Path.Descends "objects" ∧ Path.Descends "enums" :=
    ⟨⟨⟨by decide, by decide⟩, by decide, by decide⟩, ⟨⟨by decide, by decide⟩, by decide, by decide⟩⟩
  unfold places
  split
  · simp [last, directories]
  · simp [last, directories]
  · simp [last]

end Reference

namespace SchemaUnit

theorem isAbsolute_directory
    (unit : SchemaUnit) :
    Path.isAbsolute unit.directory = false := by
  unfold directory UnitKind.directory
  split <;> decide

theorem descends_of_mem_directory
    (unit : SchemaUnit) :
    ∀ name ∈ Path.segments unit.directory, Path.Descends name := by
  intro name member
  unfold directory UnitKind.directory at member
  split at member
  · rw [List.mem_singleton.mp member]
    exact ⟨⟨by decide, by decide⟩, by decide, by decide⟩
  · rw [List.mem_singleton.mp member]
    exact ⟨⟨by decide, by decide⟩, by decide, by decide⟩
  · contradiction
  · contradiction

/-- The specifier of a reference leads from the directory of a unit to the place of the reference's
module. -/
theorem normalize_join_specifier_stem
    {workingDirectory : String}
    (rooted : Path.isAbsolute workingDirectory = true)
    (unit : SchemaUnit)
    {reference : Reference}
    (plain : '/' ∉ reference.name.toList) :
    Path.normalize
        (Path.join unit.directory
          (specifier workingDirectory (if unit.directory.isEmpty then "." else unit.directory)
            reference.stem)) =
      reference.stem := by
  have filled : reference.places ≠ [] := by
    unfold Reference.places
    split <;> nofun
  rw [reference.stem_eq_intercalate]
  exact normalize_join_specifier rooted unit.isAbsolute_directory unit.descends_of_mem_directory
    filled (Reference.descends_of_mem_places plain)

end SchemaUnit

namespace Assembly

end Assembly

end ZodSchemas
