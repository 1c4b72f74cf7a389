import Mathlib.Data.List.Infix
import ZodSchemas.Proofs.Tables

namespace ZodSchemas

/-!
# Names of units

Unit names are derived by three rules: a composite keeps its name unless it
stands for a raw operation, an operation has the capitalised name of its model
and its verb, and an enumeration keeps its name.  Names are told apart by what
they end in, and no rule brings a slash into a name that has none.
-/

namespace Text

theorem exists_start_of_isStrictIdentifier
    {chars : List Char}
    (spelled : isStrictIdentifier chars = true) :
    ∃ first rest,
      chars = first :: rest ∧ isIdentifierStart first = true ∧
        ∀ char ∈ rest, isIdentifierPart char = true := by
  cases chars with
  | nil =>
      contradiction
  | cons first rest =>
      rw [isStrictIdentifier, Bool.and_eq_true, List.all_eq_true] at spelled
      exact ⟨first, rest, rfl, spelled.1, spelled.2⟩

/-- An identifier has a character that starts one at its front, and behind it characters that
continue one, or the line feed that may follow it. -/
theorem exists_start_of_isIdentifier
    {name : String}
    (valid : isIdentifier name = true) :
    ∃ first rest,
      name.toList = first :: rest ∧ isIdentifierStart first = true ∧
        ∀ char ∈ rest, isIdentifierPart char = true ∨ char = '\n' := by
  simp only [isIdentifier, isIdentifierText, Bool.or_eq_true, Bool.and_eq_true,
    beq_iff_eq] at valid
  rcases valid with spelled | ⟨lineFeed, spelled⟩
  · obtain ⟨first, rest, shape, starts, continues⟩ :=
      exists_start_of_isStrictIdentifier spelled
    exact ⟨first, rest, shape, starts, fun char member => .inl (continues char member)⟩
  · obtain ⟨first, rest, shape, starts, continues⟩ :=
      exists_start_of_isStrictIdentifier spelled
    refine ⟨first, rest ++ ['\n'], ?_, starts, ?_⟩
    · rw [← List.dropLast_append_getLast? _ lineFeed, shape, List.cons_append]
    · intro char member
      rcases List.mem_append.mp member with inRest | isLast
      · exact .inl (continues char inRest)
      · exact .inr (List.mem_singleton.mp isLast)

/-- No identifier contains a character that does not continue one, other than the line feed that
may follow it. -/
theorem not_mem_of_isIdentifier
    {name : String}
    (valid : isIdentifier name = true)
    {char : Char}
    (noPart : isIdentifierPart char = false)
    (noLineFeed : char ≠ '\n') :
    char ∉ name.toList := by
  obtain ⟨first, rest, shape, starts, continues⟩ := exists_start_of_isIdentifier valid
  rw [shape, List.mem_cons, not_or]
  refine ⟨?_, fun member => ?_⟩
  · rintro rfl
    rw [isIdentifierPart, starts] at noPart
    contradiction
  · rcases continues char member with part | lineFeed
    · exact absurd part (by simp [noPart])
    · exact noLineFeed lineFeed

theorem slash_not_mem_of_isIdentifier
    {name : String}
    (valid : isIdentifier name = true) :
    '/' ∉ name.toList :=
  not_mem_of_isIdentifier valid rfl (by decide)

private theorem toNat_eq_of_ofNat_eq
    {code : Nat}
    {char : Char}
    (filled : 0 < char.toNat)
    (same : Char.ofNat code = char) :
    code = char.toNat := by
  by_cases valid : code.isValidChar
  · rw [Char.ofNat, dif_pos valid] at same
    exact congrArg Char.toNat same
  · rw [Char.ofNat, dif_neg valid] at same
    exact absurd filled (same ▸ Nat.lt_irrefl 0)

/-- A character is expanded, or shifted, or stays as it is. -/
theorem upper_cases
    (char : Char) :
    (∃ entry ∈ upperExpansions, upper char = entry.2.map Char.ofNat) ∨
      (∃ shift ∈ upperShifts, ∃ code,
        shift.shifted? char.toNat = some code ∧ upper char = [Char.ofNat code]) ∨
      upper char = [char] := by
  unfold upper
  split
  · rename_i expanded lookup
    obtain ⟨codes, found, rfl⟩ := Option.map_eq_some_iff.mp lookup
    obtain ⟨earlier, later, shape, -⟩ := List.lookup_eq_some_iff.mp found
    exact .inl ⟨(char.toNat, codes), by simp [shape], rfl⟩
  · split
    · rename_i code shifted
      obtain ⟨shift, shiftMember, applies⟩ := List.exists_of_findSome?_eq_some shifted
      exact .inr (.inl ⟨shift, shiftMember, code, applies, rfl⟩)
    · exact .inr (.inr rfl)

/-- No mapping to upper case leads to a character. -/
def IsUnreached (target : Char) : Prop :=
  0 < target.toNat ∧
    (∀ entry ∈ upperExpansions, ∀ code ∈ entry.2, Char.ofNat code ≠ target) ∧
    ∀ shift ∈ upperShifts,
      (target.toNat : Int) < shift.first + shift.distance ∨
        (shift.last : Int) + shift.distance < target.toNat

instance (target : Char) : Decidable (IsUnreached target) :=
  inferInstanceAs (Decidable (_ ∧ _ ∧ _))

/-- A character that no mapping leads to stays only where it stood. -/
theorem not_mem_upper
    {target char : Char}
    (unreached : IsUnreached target)
    (other : upper char = [char] → char ≠ target) :
    target ∉ upper char := by
  obtain ⟨filled, expansions, shifts⟩ := unreached
  rcases upper_cases char with ⟨entry, member, isUpper⟩ |
    ⟨shift, member, code, applies, isUpper⟩ | isUpper
  · rw [isUpper]
    intro isTarget
    obtain ⟨code, codeMember, same⟩ := List.mem_map.mp isTarget
    exact expansions entry member code codeMember same
  · rw [isUpper, List.mem_singleton]
    intro isTarget
    have isCode := toNat_eq_of_ofNat_eq filled isTarget.symm
    unfold Shift.shifted? at applies
    split at applies
    · rw [← Option.some.inj applies] at isCode
      have bounds := shifts shift member
      omega
    · contradiction
  · rw [isUpper, List.mem_singleton]
    exact fun isTarget => other isUpper isTarget.symm

theorem slash_not_mem_upper
    {char : Char}
    (other : char ≠ '/') :
    '/' ∉ upper char :=
  not_mem_upper (by decide +kernel) fun _ => other

theorem slash_not_mem_capitalizeFirst
    {name : String}
    (plain : '/' ∉ name.toList) :
    '/' ∉ (capitalizeFirst name).toList := by
  unfold capitalizeFirst
  split
  · decide
  · rename_i first rest shape
    rw [shape, List.mem_cons, not_or] at plain
    rw [String.toList_ofList, List.mem_append, not_or]
    exact ⟨slash_not_mem_upper (Ne.symm plain.1), plain.2⟩

end Text

theorem Text.endings_comparable
    {first second text : String}
    (endsFirst : first.toList <:+ text.toList)
    (endsSecond : second.toList <:+ text.toList) :
    first.toList <:+ second.toList ∨ second.toList <:+ first.toList :=
  List.suffix_or_suffix_of_suffix endsFirst endsSecond

theorem Text.suffix_append
    (text ending : String) :
    ending.toList <:+ (text ++ ending).toList :=
  ⟨text.toList, by simp⟩

namespace Metadata

theorem mem_of_mem_without
    {part chars : List Char}
    {char : Char}
    (member : char ∈ without part chars) :
    char ∈ chars := by
  induction chars using without.induct part with
  | case1 =>
      simp [without] at member
  | case2 first rest found inductionHypothesis =>
      rw [without, if_pos found] at member
      exact .tail _ (List.mem_of_mem_drop (inductionHypothesis member))
  | case3 first rest notFound inductionHypothesis =>
      rw [without, if_neg notFound] at member
      rcases List.mem_cons.mp member with atHead | inRest
      · exact atHead ▸ .head _
      · exact .tail _ (inductionHypothesis inRest)

/-- Where a text goes on with a character that the part has at most at its start, no occurrence of
the part crosses that place. -/
theorem prefix_of_prefix_append
    {part first rest : List Char}
    {head : Char}
    (apart : head ∉ part.tail)
    (filled : first ≠ [])
    (occurs : part <+: first ++ head :: rest) :
    part <+: first := by
  cases part with
  | nil =>
      exact List.nil_prefix
  | cons letter letters =>
      obtain ⟨char, chars, rfl⟩ := List.exists_cons_of_ne_nil filled
      rw [List.cons_append, List.cons_prefix_cons] at occurs
      obtain ⟨rfl, starts⟩ := occurs
      rw [List.cons_prefix_cons]
      refine ⟨rfl, ?_⟩
      rcases Nat.lt_or_ge chars.length letters.length with crossing | inside
      · have reaches : chars ++ [head] <+: letters :=
          List.prefix_of_prefix_length_le ⟨rest, by simp⟩ starts (by simp; omega)
        exact (apart (reaches.subset (by simp))).elim
      · exact (List.isPrefix_append_of_length inside).mp starts

theorem without_append
    {part : List Char}
    {head : Char}
    (apart : head ∉ part.tail)
    (first rest : List Char) :
    without part (first ++ head :: rest) =
      without part first ++ without part (head :: rest) := by
  induction first using without.induct part with
  | case1 =>
      simp [without]
  | case2 char chars found inductionHypothesis =>
      obtain ⟨occurs, filled⟩ := found
      have whole : part <+: char :: chars := List.isPrefixOf_iff_prefix.mp occurs
      have longer : part <+: char :: (chars ++ head :: rest) :=
        whole.trans (List.prefix_append _ _)
      have inside : part.length - 1 ≤ chars.length := by
        have bound := whole.length_le
        simp only [List.length_cons] at bound
        omega
      rw [List.cons_append, without, without,
        if_pos ⟨List.isPrefixOf_iff_prefix.mpr longer, filled⟩, if_pos ⟨occurs, filled⟩,
        List.drop_append_of_le_length inside, inductionHypothesis]
  | case3 char chars notFound inductionHypothesis =>
      have noCrossing :
          ¬ (part.isPrefixOf (char :: (chars ++ head :: rest)) ∧ part ≠ []) := by
        rintro ⟨occurs, filled⟩
        have whole : part <+: char :: chars :=
          prefix_of_prefix_append apart (List.cons_ne_nil char chars)
            (List.isPrefixOf_iff_prefix.mp occurs)
        exact notFound ⟨List.isPrefixOf_iff_prefix.mpr whole, filled⟩
      rw [List.cons_append, without, without, if_neg noCrossing, if_neg notFound,
        List.cons_append, inductionHypothesis]

/-- A part is left out on both sides of a place that no occurrence of it crosses. -/
theorem removeAll_append
    {part ending : String}
    {head : Char}
    {rest : List Char}
    (text : String)
    (shape : ending.toList = head :: rest)
    (apart : head ∉ part.toList.tail) :
    removeAll part (text ++ ending) = removeAll part text ++ removeAll part ending := by
  rw [removeAll, removeAll, removeAll, ← String.ofList_append, String.toList_append, shape,
    without_append apart]

/-- Every entry of the table of raw operations belongs to a listed mapping. -/
theorem exists_mapping_of_lookup
    {mappings : List OperationMapping}
    {name arguments : String}
    (found : (rawOperationTable mappings).lookup name = some arguments) :
    ∃ operation, ∃ mapping ∈ mappings,
      rawOperationEntry operation mapping.model = (name, arguments) := by
  obtain ⟨earlier, later, shape, -⟩ := List.lookup_eq_some_iff.mp found
  have member :
      (name, arguments) ∈ tableOf id
        ((distinct (mappings.flatMap (·.rawOperations))).flatMap fun operation =>
          mappings.map fun mapping => rawOperationEntry operation mapping.model) := by
    change (name, arguments) ∈ rawOperationTable mappings
    simp [shape]
  obtain ⟨entry, entryMember, same⟩ := exists_of_mem_tableOf member
  obtain ⟨operation, -, inOperation⟩ := List.mem_flatMap.mp entryMember
  obtain ⟨mapping, mappingMember, isEntry⟩ := List.mem_map.mp inOperation
  exact ⟨operation, mapping, mappingMember, isEntry.trans same⟩

@[simp] theorem Operation.mem_all (operation : Operation) : operation ∈ Operation.all := by
  cases operation <;> decide

/-- No verb of an operation ends in the verb of another one. -/
theorem Operation.eq_of_verb_suffix
    {first second : Operation}
    (ending : first.verb.toList <:+ second.verb.toList) :
    first = second := by
  have verbsApart :
      ∀ one ∈ Operation.all, ∀ other ∈ Operation.all,
        one.verb.toList <:+ other.verb.toList → one = other := by
    decide
  exact verbsApart first first.mem_all second second.mem_all ending

end Metadata

namespace Assembly

open Metadata

/-- What the unit names of renamed composites end in. -/
def rawUnitEndings : List String :=
  ["FindRaw", "AggregateRaw"]

/-- The arguments of a raw operation are renamed to the model and one of two endings. -/
theorem rawUnitName_rawOperationEntry
    (operation model : String) :
    rawUnitName (rawOperationEntry operation model).2 =
      removeAll "Args" model ++
        (if operation = "findRaw" then "FindRaw" else "AggregateRaw") := by
  have keepsFind : removeAll "Args" "FindRawArgs" = "FindRaw" := by
    simp [removeAll, without]
  have keepsAggregate : removeAll "Args" "AggregateRawArgs" = "AggregateRaw" := by
    simp [removeAll, without]
  unfold rawUnitName rawOperationEntry
  by_cases isFind : operation = "findRaw"
  · rw [if_pos isFind, if_pos isFind, ← keepsFind]
    exact removeAll_append model rfl (by decide)
  · rw [if_neg isFind, if_neg isFind, ← keepsAggregate]
    exact removeAll_append model rfl (by decide)

/-- A composite is renamed only for a raw operation on a mapped model. -/
theorem exists_mapping_of_rawOperation?
    {settings : Settings}
    {document : Document}
    {name arguments : String}
    (renamed : (Context.build settings document).rawOperation? name = some arguments) :
    ∃ operation, ∃ mapping ∈ document.mappings,
      rawOperationEntry operation mapping.model = (name, arguments) := by
  unfold Context.rawOperation? at renamed
  split at renamed
  · by_cases isDocumentStore : document.provider = .mongodb
    · rw [Context.build, if_pos isDocumentStore] at renamed
      exact exists_mapping_of_lookup renamed
    · rw [Context.build, if_neg isDocumentStore] at renamed
      contradiction
  · contradiction

theorem exists_ending_of_rawOperation?
    {settings : Settings}
    {document : Document}
    {name arguments : String}
    (renamed : (Context.build settings document).rawOperation? name = some arguments) :
    ∃ ending ∈ rawUnitEndings, ending.toList <:+ (rawUnitName arguments).toList := by
  obtain ⟨operation, mapping, -, entry⟩ := exists_mapping_of_rawOperation? renamed
  have isArguments : arguments = (rawOperationEntry operation mapping.model).2 := by
    rw [entry]
  rw [isArguments, rawUnitName_rawOperationEntry]
  refine ⟨_, ?_, Text.suffix_append _ _⟩
  split <;> decide

/-- A composite whose unit name ends in something else than a raw operation keeps its name. -/
theorem compositeUnitName_eq_self_of_ending
    {settings : Settings}
    {document : Document}
    {composite ending : String}
    (apart : ∀ raw ∈ rawUnitEndings,
      ¬ (raw.toList <:+ ending.toList ∨ ending.toList <:+ raw.toList))
    (ends :
      ending.toList <:+
        (compositeUnitName (Context.build settings document) composite).toList) :
    compositeUnitName (Context.build settings document) composite = composite := by
  unfold compositeUnitName at ends ⊢
  split at ends
  · rename_i arguments renamed
    obtain ⟨raw, rawMember, endsRaw⟩ := exists_ending_of_rawOperation? renamed
    exact (apart raw rawMember (Text.endings_comparable endsRaw ends)).elim
  · rfl

/-- A composite without a slash in its name becomes a unit without one. -/
theorem slash_not_mem_compositeUnitName
    {settings : Settings}
    {document : Document}
    {composite : String}
    (plainModels : ∀ mapping ∈ document.mappings, '/' ∉ mapping.model.toList)
    (plain : '/' ∉ composite.toList) :
    '/' ∉ (compositeUnitName (Context.build settings document) composite).toList := by
  unfold compositeUnitName
  split
  · rename_i arguments renamed
    obtain ⟨operation, mapping, mappingMember, entry⟩ :=
      exists_mapping_of_rawOperation? renamed
    have isArguments : arguments = (rawOperationEntry operation mapping.model).2 := by
      rw [entry]
    rw [isArguments, rawUnitName_rawOperationEntry, String.toList_append, List.mem_append,
      not_or, removeAll, String.toList_ofList]
    exact ⟨fun member => plainModels mapping mappingMember (mem_of_mem_without member),
      by split <;> decide⟩
  · exact plain

theorem slash_not_mem_operationUnitName
    {model : String}
    (plain : '/' ∉ model.toList)
    (operation : Operation) :
    '/' ∉ (operationUnitName model operation).toList := by
  rw [operationUnitName, String.toList_append, List.mem_append, not_or]
  exact ⟨Text.slash_not_mem_capitalizeFirst plain, by cases operation <;> decide⟩

/-- The verb in the unit name of an operation tells the operation. -/
theorem operation_eq_of_verb_ending
    {model : String}
    {operation other : Operation}
    (ends : other.verb.toList <:+ (operationUnitName model operation).toList) :
    other = operation := by
  have ownEnding := Text.suffix_append (Text.capitalizeFirst model) operation.verb
  rcases Text.endings_comparable ends ownEnding with inOperation | inOther
  · exact Operation.eq_of_verb_suffix inOperation
  · exact (Operation.eq_of_verb_suffix inOther).symm

/-- Two operations have one unit name exactly when they are the same one on models that differ at
most in the case of the first character. -/
theorem operationUnitName_inj
    {first second : String}
    {operation other : Operation} :
    operationUnitName first operation = operationUnitName second other ↔
      Text.capitalizeFirst first = Text.capitalizeFirst second ∧ operation = other := by
  constructor
  · intro same
    have endsFirst : operation.verb.toList <:+ (operationUnitName second other).toList := by
      rw [← same]
      exact Text.suffix_append _ _
    have sameOperation : operation = other := operation_eq_of_verb_ending endsFirst
    subst other
    exact ⟨(String.append_left_inj _).mp same, rfl⟩
  · rintro ⟨sameModel, rfl⟩
    rw [operationUnitName, operationUnitName, sameModel]

end Assembly

end ZodSchemas
