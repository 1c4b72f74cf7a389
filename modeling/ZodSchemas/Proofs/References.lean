import ZodSchemas.Proofs.UnitNames

namespace ZodSchemas.Reference

/-!
# References, stems and symbols

A reference determines the place of a module and the symbol that it exports.
The place determines the reference, since the directory tells the kind.  The
symbol does not: an enumeration may be named like an operation, or like a
composite with the mark that composites have.
-/

private theorem ne_of_slash
    {text other : String}
    (slash : '/' ∈ text.toList)
    (plain : '/' ∉ other.toList) :
    text ≠ other :=
  fun same => plain (same ▸ slash)

/-- References whose modules stand at one place are the same, as long as no operation has a slash
in its name. -/
theorem eq_of_stem_eq
    {reference other : Reference}
    (plain : reference.kind = .operation → '/' ∉ reference.name.toList)
    (otherPlain : other.kind = .operation → '/' ∉ other.name.toList)
    (same : reference.stem = other.stem) :
    reference = other := by
  have slashes (name : String) :
      '/' ∈ (stem ⟨name, .object⟩).toList ∧ '/' ∈ (stem ⟨name, .enumeration⟩).toList := by
    simp [stem]
  have noSlash (name : String) (bare : '/' ∉ name.toList) :
      '/' ∉ (stem ⟨name, .operation⟩).toList := by
    simpa [stem] using bare
  obtain ⟨name, kind⟩ := reference
  obtain ⟨otherName, otherKind⟩ := other
  have heads (name otherName : String) :
      stem ⟨name, .object⟩ ≠ stem ⟨otherName, .enumeration⟩ := by
    intro same
    have sameHead := congrArg (fun path => path.toList.head?) same
    simp [stem, String.toList_append] at sameHead
  -- Two directories differ in their first character, and operations stand in none.
  cases kind <;> cases otherKind
  case object.object | enumeration.enumeration | operation.operation =>
    have sameName : name = otherName := by
      simpa [stem, String.append_right_inj, String.append_left_inj, String.append_assoc] using same
    rw [sameName]
  case object.enumeration =>
    exact (heads _ _ same).elim
  case enumeration.object =>
    exact (heads _ _ same.symm).elim
  case object.operation =>
    exact (ne_of_slash (slashes name).1 (noSlash _ (otherPlain rfl)) same).elim
  case enumeration.operation =>
    exact (ne_of_slash (slashes name).2 (noSlash _ (otherPlain rfl)) same).elim
  case operation.object =>
    exact (ne_of_slash (slashes otherName).1 (noSlash _ (plain rfl)) same.symm).elim
  case operation.enumeration =>
    exact (ne_of_slash (slashes otherName).2 (noSlash _ (plain rfl)) same.symm).elim

theorem suffix_stem
    (reference : Reference) :
    ".schema".toList <:+ reference.stem.toList := by
  obtain ⟨name, kind⟩ := reference
  cases kind <;> exact Text.suffix_append _ _

theorem suffix_symbol
    (reference : Reference) :
    "Schema".toList <:+ reference.symbol.toList := by
  obtain ⟨name, kind⟩ := reference
  cases kind with
  | object =>
      exact List.IsSuffix.trans (by decide) (Text.suffix_append name "ObjectSchema")
  | enumeration | operation =>
      exact Text.suffix_append name "Schema"

theorem stem_ne_empty
    (reference : Reference) :
    reference.stem ≠ "" := by
  intro empty
  have ends := reference.suffix_stem
  rw [empty] at ends
  exact absurd ends (by decide)

theorem stem_ne_index
    (reference : Reference) :
    reference.stem ≠ "index" := by
  intro same
  have ends := reference.suffix_stem
  rw [same] at ends
  exact absurd ends (by decide)

theorem eq_of_symbol_eq
    {reference other : Reference}
    (sameKind : reference.kind = other.kind)
    (same : reference.symbol = other.symbol) :
    reference = other := by
  obtain ⟨name, kind⟩ := reference
  obtain ⟨otherName, otherKind⟩ := other
  obtain rfl : kind = otherKind := sameKind
  have sameName : name = otherName := by
    cases kind <;> exact (String.append_left_inj _).mp same
  rw [sameName]

/-- An enumeration or an operation shares its symbol with a composite when its name is that of the
composite with a mark. -/
theorem symbol_eq_symbol_object_iff
    {name composite : String}
    {kind : ReferenceKind}
    (other : kind ≠ .object) :
    symbol ⟨name, kind⟩ = symbol ⟨composite, .object⟩ ↔ name = composite ++ "Object" := by
  have split : composite ++ "ObjectSchema" = composite ++ "Object" ++ "Schema" := by
    rw [String.append_assoc]
    rfl
  cases kind with
  | object =>
      contradiction
  | enumeration | operation =>
      change name ++ "Schema" = composite ++ "ObjectSchema" ↔ _
      rw [split, String.append_left_inj]

/-- An enumeration shares its symbol with an operation of its name. -/
theorem symbol_enumeration_eq_symbol_operation_iff
    {name operation : String} :
    symbol ⟨name, .enumeration⟩ = symbol ⟨operation, .operation⟩ ↔ name = operation :=
  String.append_left_inj _

end ZodSchemas.Reference
