import Mathlib.Data.List.TakeWhile
import ZodSchemas.Proofs.ImportClosure

namespace ZodSchemas

/-!
# Specifiers that are taken for packages

A module specifier is relative if its first part is `.` or `..`; any other one
names a package.  The way from a directory to a target gets a point at its front
unless it has one, and a hidden name has one of its own.  So a specifier is
relative unless the target lies below the directory through a hidden name.
-/

/-- Whether a module specifier is `.` or `..`, alone or with a slash behind it. -/
def IsRelative (specifier : String) : Prop :=
  specifier = "." ∨ specifier = ".." ∨
    "./".toList <+: specifier.toList ∨ "../".toList <+: specifier.toList

instance (specifier : String) : Decidable (IsRelative specifier) :=
  inferInstanceAs (Decidable (_ ∨ _ ∨ _ ∨ _))

/-- A name with a point at its front that is neither `.` nor `..`. -/
structure IsHidden (name : String) : Prop where
  pointFirst : name.toList.head? = some '.'
  notHere : name ≠ "."
  notUp : name ≠ ".."

/-- What stands before the first slash of a text. -/
def leadingPart (text : String) : String :=
  String.ofList (text.toList.takeWhile (· ≠ '/'))

/-- The leading part is the whole text, or it has a slash behind it. -/
theorem leadingPart_cases
    (text : String) :
    leadingPart text = text ∨ (leadingPart text ++ "/").toList <+: text.toList := by
  have whole := List.takeWhile_append_dropWhile (p := (· ≠ '/')) (l := text.toList)
  rcases dropped : text.toList.dropWhile (· ≠ '/') with _ | ⟨first, rest⟩
  · rw [dropped, List.append_nil] at whole
    exact .inl (by rw [leadingPart, whole, String.ofList_toList])
  · have isSlash : first = '/' := by
      have notDropped := List.head?_dropWhile_not (· ≠ '/') text.toList
      rw [dropped] at notDropped
      simpa using notDropped
    refine .inr ⟨rest, ?_⟩
    rw [← whole, dropped, isSlash, leadingPart]
    simp [String.toList_append]

theorem leadingPart_eq_of_prefixed
    {text part : String}
    (noSlash : '/' ∉ part.toList)
    (front : (part ++ "/").toList <+: text.toList) :
    leadingPart text = part := by
  obtain ⟨rest, shape⟩ := front
  have untilSlash : part.toList.takeWhile (· ≠ '/') = part.toList :=
    List.takeWhile_eq_self_iff.mpr fun char member => by
      simpa using fun (isSlash : char = '/') => noSlash (isSlash ▸ member)
  rw [leadingPart, ← shape, String.toList_append, List.append_assoc, List.takeWhile_append,
    untilSlash, if_pos rfl]
  simp

theorem leadingPart_eq_self_iff
    {text : String} :
    leadingPart text = text ↔ '/' ∉ text.toList := by
  rw [← String.toList_inj, leadingPart, String.toList_ofList, List.takeWhile_eq_self_iff]
  simp only [ne_eq, decide_not, Bool.not_eq_eq_eq_not, Bool.not_true, decide_eq_false_iff_not]
  exact ⟨fun apart member => apart _ member rfl, fun noSlash _ member isSlash =>
    noSlash (isSlash ▸ member)⟩

theorem isRelative_iff
    {specifier : String} :
    IsRelative specifier ↔ leadingPart specifier = "." ∨ leadingPart specifier = ".." := by
  constructor
  · rintro (rfl | rfl | front | front)
    · exact .inl (by decide)
    · exact .inr (by decide)
    · exact .inl (leadingPart_eq_of_prefixed (by decide) front)
    · exact .inr (leadingPart_eq_of_prefixed (by decide) front)
  · intro points
    rcases leadingPart_cases specifier with whole | front
    · rw [whole] at points
      exact points.elim .inl fun up => .inr (.inl up)
    · rcases points with here | up
      · rw [here] at front
        exact .inr (.inr (.inl front))
      · rw [up] at front
        exact .inr (.inr (.inr front))

/-- Whatever is appended to a text with a slash leaves its leading part. -/
theorem leadingPart_append_of_slash
    {text : String}
    (slash : '/' ∈ text.toList)
    (rest : String) :
    leadingPart (text ++ rest) = leadingPart text := by
  have noSlash : '/' ∉ (leadingPart text).toList := by
    rw [leadingPart, String.toList_ofList]
    intro member
    simpa using List.mem_takeWhile_imp member
  rcases leadingPart_cases text with whole | front
  · exact absurd slash (leadingPart_eq_self_iff.mp whole)
  · refine leadingPart_eq_of_prefixed noSlash (front.trans ?_)
    rw [String.toList_append]
    exact List.prefix_append _ _

/-- A segment behind a slash leaves the leading part. -/
theorem leadingPart_append_segment
    (text rest : String) :
    leadingPart (text ++ "/" ++ rest) = leadingPart text := by
  by_cases slash : '/' ∈ text.toList
  · rw [String.append_assoc, leadingPart_append_of_slash slash]
  · rw [leadingPart_eq_self_iff.mpr slash]
    refine leadingPart_eq_of_prefixed slash ?_
    rw [String.toList_append (s := text ++ "/")]
    exact List.prefix_append _ _

theorem leadingPart_append_of_no_slash
    {text : String}
    (noSlash : '/' ∉ text.toList)
    (rest : String) :
    leadingPart (text ++ rest) = text ++ leadingPart rest := by
  have whole := leadingPart_eq_self_iff.mpr noSlash
  rw [leadingPart, ← String.toList_inj, String.toList_ofList] at whole
  rw [leadingPart, String.toList_append, List.takeWhile_append, whole, if_pos rfl,
    String.ofList_append, String.ofList_toList, leadingPart]

/-- An extension leaves a relative specifier relative, unless the specifier is points alone. -/
theorem isRelative_append_iff
    {specifier : String}
    (pointFirst : specifier.toList.head? = some '.')
    (extension : String) :
    IsRelative (specifier ++ extension) ↔
      IsRelative specifier ∧
        (specifier = "." ∨ specifier = ".." → IsRelative (specifier ++ extension)) := by
  by_cases slash : '/' ∈ specifier.toList
  · have notPoints : ¬ (specifier = "." ∨ specifier = "..") := by
      rintro (rfl | rfl) <;> exact absurd slash (by decide)
    rw [isRelative_iff, isRelative_iff, leadingPart_append_of_slash slash]
    simp [notPoints]
  · have whole : leadingPart specifier = specifier := leadingPart_eq_self_iff.mpr slash
    constructor
    · -- The specifier is at the front of the points that the extended one starts with.
      intro relative
      refine ⟨?_, fun _ => relative⟩
      obtain ⟨rest, shape⟩ := List.head?_eq_some_iff.mp pointFirst
      rw [isRelative_iff, leadingPart_append_of_no_slash slash, ← String.toList_inj,
        ← String.toList_inj, String.toList_append, shape] at relative
      rw [isRelative_iff, whole, ← String.toList_inj, ← String.toList_inj, shape]
      rcases rest with _ | ⟨second, others⟩
      · exact .inl rfl
      · have fits : second = '.' ∧ others = [] ∧ leadingPart extension = "" := by
          simpa using relative
        rw [fits.1, fits.2.1]
        exact .inr rfl
    · rintro ⟨relative, keeps⟩
      exact keeps (whole ▸ isRelative_iff.mp relative)

/-- A path with a point at its front is relative, unless it starts with a hidden name. -/
theorem isRelative_pointed_iff
    {path : String} :
    IsRelative (pointed path) ↔ ¬ IsHidden (leadingPart path) := by
  have sameHead : (leadingPart path).toList.head? = some '.' ↔ path.toList.head? = some '.' := by
    rw [leadingPart, String.toList_ofList]
    cases path.toList with
    | nil =>
        simp
    | cons first rest =>
        by_cases isSlash : first = '/' <;> simp [isSlash]
  unfold pointed
  split
  · rename_i pointFirst
    rw [isRelative_iff]
    constructor
    · rintro (here | up) hidden
      · exact hidden.notHere here
      · exact hidden.notUp up
    · intro notHidden
      by_contra apart
      rw [not_or] at apart
      exact notHidden ⟨sameHead.mpr pointFirst, apart.1, apart.2⟩
  · rename_i noPoint
    refine iff_of_true (.inr (.inr (.inl ?_))) fun hidden => noPoint (sameHead.mp hidden.pointFirst)
    rw [String.toList_append]
    exact List.prefix_append _ _

namespace Path

theorem leadingPart_ofSegments
    {name : String}
    {rest : List String}
    (isSegment : IsSegment name) :
    leadingPart (ofSegments 0 (name :: rest)) = name := by
  have shape : ofSegments 0 (name :: rest) = "/".intercalate (name :: rest) := by
    simp [ofSegments]
  rw [shape]
  by_cases isLast : rest = []
  · rw [isLast, String.intercalate_singleton, leadingPart_eq_self_iff]
    exact isSegment.2
  · rw [String.intercalate_cons_of_ne_nil isLast, leadingPart_append_segment,
      leadingPart_eq_self_iff]
    exact isSegment.2

/-- The way between two directories is empty, goes up first, or goes down only. -/
theorem climb_cases
    (start target : List String) :
    climb start target = [] ∧ target = start ∨
      (∃ rest, climb start target = ".." :: rest) ∨
        ∃ name below, climb start target = name :: below ∧ target = start ++ name :: below := by
  rcases up : start.length - sharedLength start target with _ | steps
  · have front := take_sharedLength start target
    rw [List.take_of_length_le (Nat.sub_eq_zero_iff_le.mp up)] at front
    have whole : target = start ++ target.drop (sharedLength start target) := by
      nth_rewrite 1 [← List.take_append_drop (sharedLength start target) target]
      rw [← front]
    have way : climb start target = target.drop (sharedLength start target) := by
      rw [climb, up]
      rfl
    rcases below : target.drop (sharedLength start target) with _ | ⟨name, rest⟩
    · exact .inl ⟨way.trans below, by rwa [below, List.append_nil] at whole⟩
    · exact .inr (.inr ⟨name, rest, way.trans below, by rwa [below] at whole⟩)
  · refine .inr (.inl ⟨List.replicate steps ".." ++ target.drop (sharedLength start target), ?_⟩)
    rw [climb, up, List.replicate_succ, List.cons_append]

theorem climb_append
    (start below : List String) :
    climb start (start ++ below) = below := by
  have way := climb_append_left start [] below
  rw [List.append_nil] at way
  rw [way]
  simp [climb, sharedLength]

/-- Whether a target lies below a directory through a hidden name. -/
def IsBelowHidden (workingDirectory start target : String) : Prop :=
  ∃ name below,
    IsHidden name ∧
      segments (absolute workingDirectory target) =
        segments (absolute workingDirectory start) ++ name :: below

end Path

/-- A specifier is relative unless its target lies below its start through a hidden name. -/
theorem isRelative_specifier_iff
    {workingDirectory start target : String}
    (filled : target ≠ "") :
    IsRelative (specifier workingDirectory start target) ↔
      ¬ Path.IsBelowHidden workingDirectory start target := by
  rw [specifier_of_ne_empty filled, isRelative_pointed_iff, not_iff_not, Path.IsBelowHidden]
  have areSegments :
      ∀ name ∈ Path.segments (Path.absolute workingDirectory target), Path.IsSegment name :=
    fun _ member => Path.isSegment_of_mem_segments member
  generalize Path.segments (Path.absolute workingDirectory target) = aim at areSegments ⊢
  generalize Path.segments (Path.absolute workingDirectory start) = origin
  have waySegments : ∀ name ∈ Path.climb origin aim, Path.IsSegment name :=
    Path.isSegment_of_mem_climb areSegments
  constructor
  · intro hidden
    rcases Path.climb_cases origin aim with ⟨noWay, -⟩ | ⟨rest, up⟩ | ⟨name, below, down, whole⟩
    · rw [noWay] at hidden
      exact (hidden.notHere (by decide)).elim
    · rw [up, Path.leadingPart_ofSegments ⟨by decide, by decide⟩] at hidden
      exact (hidden.notUp rfl).elim
    · rw [down, Path.leadingPart_ofSegments (waySegments name (down ▸ .head _))] at hidden
      exact ⟨name, below, hidden, whole⟩
  · rintro ⟨name, below, hidden, whole⟩
    rw [whole, Path.climb_append] at waySegments ⊢
    rwa [Path.leadingPart_ofSegments (waySegments name (.head _))]

theorem head?_specifier
    {workingDirectory start target : String}
    (filled : target ≠ "") :
    (specifier workingDirectory start target).toList.head? = some '.' := by
  rw [specifier_of_ne_empty filled, head?_pointed]

namespace Reference

/-- No segment of an identifier's place is hidden. -/
theorem not_isHidden_of_mem_places
    {reference : Reference}
    (isIdentifier : Text.isIdentifier reference.name = true)
    {name : String}
    (member : name ∈ reference.places) :
    ¬ IsHidden name := by
  have last : ¬ IsHidden (reference.name ++ ".schema") := by
    obtain ⟨first, rest, shape, starts, -⟩ := Text.exists_start_of_isIdentifier isIdentifier
    intro hidden
    have isPoint : first = '.' := by
      simpa [String.toList_append, shape] using hidden.pointFirst
    rw [isPoint] at starts
    exact absurd starts (by decide)
  have directories : ¬ IsHidden "objects" ∧ ¬ IsHidden "enums" :=
    ⟨fun hidden => absurd hidden.pointFirst (by decide),
      fun hidden => absurd hidden.pointFirst (by decide)⟩
  unfold places at member
  split at member
  · rcases List.mem_pair.mp member with rfl | rfl
    · exact directories.1
    · exact last
  · rcases List.mem_pair.mp member with rfl | rfl
    · exact directories.2
    · exact last
  · exact List.mem_singleton.mp member ▸ last

end Reference

namespace SchemaUnit

/-- The last segment of the newer client leaves a specifier relative or not. -/
theorem isRelative_withClientEntry
    (context : Context)
    (source : String) :
    IsRelative (withClientEntry context source) ↔ IsRelative source := by
  unfold withClientEntry
  split
  · have entry : source ++ clientEntry = source ++ "/" ++ "client" := by
      rw [String.append_assoc]
      rfl
    rw [isRelative_iff, isRelative_iff, entry, leadingPart_append_segment]
  · rfl

/-- Where the specifiers of a unit's references start. -/
def start (unit : SchemaUnit) : String :=
  if unit.directory.isEmpty then "." else unit.directory

end SchemaUnit

/-- Whether the extension of a context leaves a specifier relative that is points alone. -/
def Context.KeepsPoints (context : Context) (specifier : String) : Prop :=
  specifier = "." ∨ specifier = ".." → IsRelative (specifier ++ context.importSuffix)

/-- For an identifier, the extension is never put behind points alone. -/
theorem SchemaUnit.isRelative_referenceModule_of_isIdentifier
    {workingDirectory : String}
    (rooted : Path.isAbsolute workingDirectory = true)
    (context : Context)
    (unit : SchemaUnit)
    {reference : Reference}
    (isIdentifier : Text.isIdentifier reference.name = true) :
    IsRelative (unit.referenceModule workingDirectory context reference) := by
  have plain := Text.slash_not_mem_of_isIdentifier isIdentifier
  have filled := reference.stem_ne_empty
  refine (isRelative_append_iff (head?_specifier filled) context.importSuffix).mpr ⟨?_, ?_⟩
  · rw [isRelative_specifier_iff filled]
    rintro ⟨name, below, hidden, whole⟩
    have descend := Reference.descends_of_mem_places plain
    have areSegments : ∀ name ∈ reference.places, Path.IsSegment name :=
      fun _ member => (descend _ member).segment
    rw [segments_absolute_start rooted unit.isAbsolute_directory unit.descends_of_mem_directory,
      reference.stem_eq_intercalate,
      Path.segments_absolute rooted (Path.isAbsolute_intercalate areSegments),
      Path.segments_intercalate areSegments, Path.normalSegments_append _ descend,
      List.append_assoc, List.append_cancel_left_eq] at whole
    exact Reference.not_isHidden_of_mem_places isIdentifier
      (whole ▸ List.mem_append_right _ (.head _)) hidden
  · -- From the directory of a unit, points alone lead to no module.
    intro points
    have directories :
        unit.directory = "objects" ∨ unit.directory = "enums" ∨ unit.directory = "" := by
      unfold directory UnitKind.directory
      cases unit.kind <;> decide
    have ends := reference.suffix_stem
    rw [← unit.normalize_join_specifier_stem rooted plain] at ends
    rcases points with here | up
    · rw [here] at ends
      rcases directories with isDirectory | isDirectory | isDirectory <;>
        exact absurd (isDirectory ▸ ends) (by decide)
    · rw [up] at ends
      rcases directories with isDirectory | isDirectory | isDirectory <;>
        exact absurd (isDirectory ▸ ends) (by decide)

/-- A specifier is relative exactly if its target does not lie below its start through a hidden
name.  So is the import of the host types from a client with a place of its own, and that of a
schema unless an extension is put behind points alone, which does not happen for identifiers. -/
theorem isRelative_iff_not_isBelowHidden
    (workingDirectory : String) :
    (∀ start target, target ≠ "" →
        (IsRelative (specifier workingDirectory start target) ↔
          ¬ Path.IsBelowHidden workingDirectory start target)) ∧
      (∀ (context : Context) (unit : SchemaUnit), context.client.hasCustomOutput = true →
        (IsRelative (unit.hostModule workingDirectory context) ↔
          ¬ Path.IsBelowHidden workingDirectory (Path.join context.schemasPath unit.directory)
              (SchemaUnit.clientPlace context))) ∧
      ∀ (context : Context) (unit : SchemaUnit) (reference : Reference),
        (IsRelative (unit.referenceModule workingDirectory context reference) ↔
            ¬ Path.IsBelowHidden workingDirectory unit.start reference.stem ∧
              context.KeepsPoints (specifier workingDirectory unit.start reference.stem)) ∧
          (Path.isAbsolute workingDirectory = true → Text.isIdentifier reference.name = true →
            IsRelative (unit.referenceModule workingDirectory context reference)) := by
  refine ⟨fun _ _ filled => isRelative_specifier_iff filled, fun context unit custom => ?_,
    fun context unit reference => ⟨?_, fun rooted isIdentifier =>
      unit.isRelative_referenceModule_of_isIdentifier rooted context isIdentifier⟩⟩
  · rw [SchemaUnit.hostModule, if_pos custom, SchemaUnit.isRelative_withClientEntry,
      isRelative_specifier_iff (SchemaUnit.clientPlace_ne_empty context)]
  · have filled := reference.stem_ne_empty
    change IsRelative
        (specifier workingDirectory unit.start reference.stem ++ context.importSuffix) ↔ _
    rw [isRelative_append_iff (head?_specifier filled), isRelative_specifier_iff filled]
    rfl

/-- The settings of a run with a client of its own. -/
def withClientAt (output : String) : Settings :=
  { Settings.default with
    output := "gen"
    client := { Client.default with output := some output } }

/-- The context of these settings and of a document with nothing in it. -/
def contextWithClientAt (output : String) : Context :=
  .build (withClientAt output) ⟨.postgresql, [], [], [], [], [], none⟩

/-- The unit of a bulk query that takes arbitrary JSON. -/
def jsonQuery : SchemaUnit :=
  ⟨.operation, "UserFindMany", some .json, none, []⟩

theorem isRelative_iff_not_isBelowHidden_clientBeside :
    "gen/client" ≠ "" ∧
      IsRelative (specifier "/work" "gen/schemas/" "gen/client") ∧
      (contextWithClientAt "gen/client").client.hasCustomOutput = true ∧
      IsRelative (jsonQuery.hostModule "/work" (contextWithClientAt "gen/client")) ∧
      Path.isAbsolute "/work" = true ∧
      Text.isIdentifier "Role" = true ∧
      IsRelative
        (jsonQuery.referenceModule "/work" (contextWithClientAt "gen/client")
          ⟨"Role", .enumeration⟩) := by
  obtain ⟨ofTargets, ofClients, ofReferences⟩ := isRelative_iff_not_isBelowHidden "/work"
  have beside : ¬ Path.IsBelowHidden "/work" "gen/schemas/" "gen/client" := by
    have origin :
        Path.segments (Path.absolute "/work" "gen/schemas/") = ["work", "gen", "schemas"] := by
      decide +kernel
    have aim : Path.segments (Path.absolute "/work" "gen/client") = ["work", "gen", "client"] := by
      decide +kernel
    rintro ⟨name, below, -, whole⟩
    rw [origin, aim] at whole
    simp at whole
  have start :
      Path.join (contextWithClientAt "gen/client").schemasPath jsonQuery.directory =
        "gen/schemas/" := by
    decide +kernel
  have custom : (contextWithClientAt "gen/client").client.hasCustomOutput = true := by
    decide
  have rooted : Path.isAbsolute "/work" = true := by
    decide
  have isIdentifier : Text.isIdentifier "Role" = true := by
    decide
  have ofClient := ofClients (contextWithClientAt "gen/client") jsonQuery custom
  rw [start] at ofClient
  exact ⟨by decide, (ofTargets _ _ (by decide)).mpr beside, custom, ofClient.mpr beside, rooted,
    isIdentifier, (ofReferences _ _ ⟨"Role", .enumeration⟩).2 rooted isIdentifier⟩

/-- Below the schemas directory and through a hidden name, the client is taken for a package. -/
theorem not_isRelative_hiddenClient :
    "gen/schemas/.prisma/client" ≠ "" ∧
      specifier "/work/project" "gen/schemas" "gen/schemas/.prisma/client" = ".prisma/client" ∧
      ¬ IsRelative (specifier "/work/project" "gen/schemas" "gen/schemas/.prisma/client") ∧
      (contextWithClientAt "gen/schemas/.prisma/client").client.hasCustomOutput = true ∧
      jsonQuery.hostModule "/work/project"
          (contextWithClientAt "gen/schemas/.prisma/client") =
        ".prisma/client" ∧
      ¬ IsRelative
        (jsonQuery.hostModule "/work/project"
          (contextWithClientAt "gen/schemas/.prisma/client")) := by
  decide +kernel

end ZodSchemas
