import ZodSchemas.Proofs.ImportClosure
import ZodSchemas.Proofs.NormalPaths

namespace ZodSchemas

/-!
# Where the import of the host types leads

A client with a place of its own is imported by the way from the directory of the
importing module.  Both ends of this way are absolute and normal, so whoever
follows it from the directory comes to the client, or to the entry below it that
the newer client has.  Where the way starts makes no difference.
-/

namespace Path

/-- How many leading slashes the absolute form of a path has. -/
def absoluteSlashes (workingDirectory path : String) : Nat :=
  if isAbsolute path then rootSlashes path else rootSlashes workingDirectory

theorem rootSlashes_le_two
    (path : String) :
    rootSlashes path ≤ 2 := by
  unfold rootSlashes
  split <;> decide

theorem absoluteSlashes_le_two
    (workingDirectory path : String) :
    absoluteSlashes workingDirectory path ≤ 2 := by
  unfold absoluteSlashes
  split <;> exact rootSlashes_le_two _

theorem rootSlashes_eq_one
    {path : String}
    (rooted : isAbsolute path = true)
    (notTwo : rootSlashes path ≠ 2) :
    rootSlashes path = 1 := by
  have atRoot : rootSlashes path ≠ 0 := by
    rw [ne_eq, rootSlashes_eq_zero_iff, rooted]
    decide
  have atMostTwo := rootSlashes_le_two path
  omega

theorem absoluteSlashes_ne_zero
    {workingDirectory : String}
    (rooted : isAbsolute workingDirectory = true)
    (path : String) :
    absoluteSlashes workingDirectory path ≠ 0 := by
  unfold absoluteSlashes
  split <;> simp [rootSlashes_eq_zero_iff, *]

/-- An absolute path has leading slashes and segments that lead down. -/
theorem exists_absolute_eq
    {workingDirectory : String}
    (rooted : isAbsolute workingDirectory = true)
    (path : String) :
    ∃ names,
      (∀ name ∈ names, Descends name) ∧
        absolute workingDirectory path =
          ofSegments (absoluteSlashes workingDirectory path) names := by
  let whole := if isAbsolute path then path else join workingDirectory path
  have wholeRooted : isAbsolute whole = true := by
    by_cases absolutePath : isAbsolute path = true
    · simp only [whole, absolutePath, ↓reduceIte]
    · simp only [whole, absolutePath]
      exact isAbsolute_join rooted path
  have slashes : rootSlashes whole = absoluteSlashes workingDirectory path := by
    by_cases absolutePath : isAbsolute path = true
    · simp only [whole, absoluteSlashes, absolutePath, ↓reduceIte]
    · simp only [whole, absoluteSlashes, absolutePath]
      exact rootSlashes_join workingDirectory (Bool.eq_false_iff.mpr absolutePath)
  refine ⟨normalNames whole, descends_of_mem_normalNames wholeRooted, ?_⟩
  rw [← slashes]
  rfl

theorem segments_ofSegments_of_descends
    {slashes : Nat}
    (atRoot : slashes ≠ 0)
    {names : List String}
    (descend : ∀ name ∈ names, Descends name) :
    segments (ofSegments slashes names) = names := by
  rw [segments_ofSegments fun name member => (descend name member).segment,
    if_neg fun empty => atRoot empty.1]

theorem rootSlashes_ofSegments
    {slashes : Nat}
    (atRoot : slashes ≠ 0)
    (atMostTwo : slashes ≤ 2)
    {names : List String}
    (descend : ∀ name ∈ names, Descends name) :
    rootSlashes (ofSegments slashes names) = slashes := by
  have relative :=
    isAbsolute_intercalate fun name member => (descend name member).segment
  have notSlash : ("/".intercalate names).toList.head? ≠ some '/' := by
    simpa [isAbsolute] using relative
  rw [ofSegments, if_neg fun empty => atRoot empty.1]
  unfold rootSlashes
  rw [String.toList_append, String.toList_ofList]
  generalize ("/".intercalate names).toList = chars at notSlash
  have cases : slashes = 1 ∨ slashes = 2 := by
    omega
  rcases cases with rfl | rfl <;> rcases chars with _ | ⟨first, rest⟩
  · rfl
  · simp at notSlash
    simp [List.replicate, notSlash]
  · rfl
  · simp at notSlash
    simp [List.replicate, notSlash]

/-- A path that is followed from an absolute directory. -/
theorem normalize_join_ofSegments
    {slashes : Nat}
    (atRoot : slashes ≠ 0)
    (atMostTwo : slashes ≤ 2)
    {start names : List String}
    (descend : ∀ name ∈ start, Descends name)
    {path : String}
    (relative : isAbsolute path = false)
    (leads : normalSegments true (start ++ segments path) = names) :
    normalize (join (ofSegments slashes start) path) = ofSegments slashes names := by
  rw [normalize, rootSlashes_join _ relative, rootSlashes_ofSegments atRoot atMostTwo descend,
    segments_join relative, segments_ofSegments_of_descends atRoot descend,
    bne_iff_ne.mpr atRoot, leads]

/-- No slash ends the segments that stand behind one another. -/
theorem getLast?_intercalate
    {names : List String}
    (filled : names ≠ [])
    (areSegments : ∀ name ∈ names, IsSegment name) :
    ∃ char, ("/".intercalate names).toList.getLast? = some char ∧ char ≠ '/' := by
  induction names with
  | nil =>
      contradiction
  | cons name rest inductionHypothesis =>
      rw [List.forall_mem_cons] at areSegments
      by_cases isLast : rest = []
      · obtain ⟨char, ends⟩ :=
          Option.ne_none_iff_exists'.mp
            (mt List.getLast?_eq_none_iff.mp (mt String.toList_eq_nil_iff.mp areSegments.1.1))
        rw [isLast, String.intercalate_singleton]
        refine ⟨char, ends, ?_⟩
        rintro rfl
        exact areSegments.1.2 (List.mem_of_getLast? ends)
      · obtain ⟨char, ends, notSlash⟩ := inductionHypothesis isLast areSegments.2
        refine ⟨char, ?_, notSlash⟩
        rw [String.intercalate_cons_of_ne_nil isLast, String.toList_append, List.getLast?_append,
          ends]
        rfl

/-- A segment is appended to an absolute directory. -/
theorem join_ofSegments
    {slashes : Nat}
    (atRoot : slashes ≠ 0)
    {names : List String}
    (areSegments : ∀ name ∈ names, IsSegment name)
    {name : String}
    (isSegment : IsSegment name) :
    join (ofSegments slashes names) name = ofSegments slashes (names ++ [name]) := by
  have relative := isSegment.isAbsolute_eq_false
  have shape (names : List String) :
      ofSegments slashes names =
        String.ofList (List.replicate slashes '/') ++ "/".intercalate names := by
    rw [ofSegments, if_neg fun empty => atRoot empty.1]
  rw [join, if_neg (Bool.eq_false_iff.mp relative), shape, shape]
  by_cases noNames : names = []
  · have endsInSlash :
        (String.ofList (List.replicate slashes '/') ++ "/".intercalate names).toList.getLast? =
          some '/' := by
      rw [noNames]
      simp [List.getLast?_replicate, atRoot]
    rw [if_pos (.inr endsInSlash), noNames]
    simp
  · obtain ⟨char, ends, notSlash⟩ := getLast?_intercalate noNames areSegments
    have closed :
        ¬ ((String.ofList (List.replicate slashes '/') ++ "/".intercalate names).isEmpty = true ∨
          (String.ofList (List.replicate slashes '/') ++ "/".intercalate names).toList.getLast? =
            some '/') := by
      rw [String.toList_append, List.getLast?_append, ends, String.isEmpty_iff,
        ← String.toList_eq_nil_iff, String.toList_append, List.append_eq_nil_iff]
      rintro (⟨-, isEmpty⟩ | isSlash)
      · rw [isEmpty] at ends
        contradiction
      · exact notSlash (Option.some.inj isSlash)
    rw [if_neg closed, String.intercalate_append_of_ne_nil noNames (List.cons_ne_nil name []),
      String.intercalate_singleton]
    simp only [String.append_assoc]

end Path

/-- Whether a text occurs in another one, as the rule for the client's entry decides it. -/
theorem Metadata.occursIn_iff
    {part chars : List Char} :
    occursIn part chars = true ↔ part <:+: chars := by
  induction chars with
  | nil =>
      simp [occursIn]
  | cons char rest inductionHypothesis =>
      rw [occursIn, Bool.or_eq_true, inductionHypothesis, List.infix_cons_iff,
        List.isPrefixOf_iff_prefix]

/-- Whether the entry of the newer client is put behind a specifier: it is neither there nor is the
specifier that of the default client. -/
structure Context.AddsEntry (context : Context) (specifier : String) : Prop where
  isNew : context.client.isNew = true
  notThere : ¬ clientEntry.toList <:+ specifier.toList
  notDefault : ¬ defaultClientModule.toList <:+: specifier.toList

namespace SchemaUnit

theorem withClientEntry_of_addsEntry
    {context : Context}
    {specifier : String}
    (adds : context.AddsEntry specifier) :
    withClientEntry context specifier = specifier ++ "/" ++ "client" := by
  have noSuffix : clientEntry.toList.isSuffixOf specifier.toList = false := by
    rw [← Bool.not_eq_true, List.isSuffixOf_iff_suffix]
    exact adds.notThere
  have noDefault :
      Metadata.occursIn defaultClientModule.toList specifier.toList = false := by
    rw [← Bool.not_eq_true, Metadata.occursIn_iff]
    exact adds.notDefault
  rw [withClientEntry, adds.isNew, noSuffix, noDefault, String.append_assoc]
  rfl

theorem withClientEntry_of_not_addsEntry
    {context : Context}
    {specifier : String}
    (keeps : ¬ context.AddsEntry specifier) :
    withClientEntry context specifier = specifier := by
  unfold withClientEntry
  split
  · rename_i adds
    rw [Bool.and_eq_true, Bool.and_eq_true, Bool.not_eq_true', Bool.not_eq_true',
      ← Bool.not_eq_true, ← Bool.not_eq_true, List.isSuffixOf_iff_suffix,
      Metadata.occursIn_iff] at adds
    exact absurd ⟨adds.1.1, adds.1.2, adds.2⟩ keeps
  · rfl

/-- The absolute directory of a unit's module. -/
def absoluteDirectory (workingDirectory : String) (context : Context) (unit : SchemaUnit) :
    String :=
  Path.absolute workingDirectory (Path.join context.schemasPath unit.directory)

/-- The way from the directory of a unit's module to the client, before its entry is added. -/
def clientSpecifier (workingDirectory : String) (context : Context) (unit : SchemaUnit) : String :=
  specifier workingDirectory (Path.join context.schemasPath unit.directory) (clientPlace context)

/-- Where the import of the host types leads from the directory of a unit's module. -/
def hostPlace (workingDirectory : String) (context : Context) (unit : SchemaUnit) : String :=
  Path.normalize
    (Path.join (unit.absoluteDirectory workingDirectory context)
      (unit.hostModule workingDirectory context))

theorem absoluteSlashes_schemas
    (workingDirectory : String)
    (context : Context)
    (unit : SchemaUnit) :
    Path.absoluteSlashes workingDirectory (Path.join context.schemasPath unit.directory) =
      Path.absoluteSlashes workingDirectory context.outputPath := by
  have ofJoin (directory : String) {path : String} (relative : Path.isAbsolute path = false) :
      Path.absoluteSlashes workingDirectory (Path.join directory path) =
        Path.absoluteSlashes workingDirectory directory := by
    rw [Path.absoluteSlashes, Path.absoluteSlashes, Path.isAbsolute_join_iff directory relative,
      Path.rootSlashes_join directory relative]
  rw [ofJoin _ unit.isAbsolute_directory, Context.schemasPath]
  split
  · rfl
  · exact ofJoin _ (by decide)

/-- The paths of the output and of the client start at the same root. -/
theorem absoluteSlashes_client
    {workingDirectory : String}
    (rooted : Path.isAbsolute workingDirectory = true)
    {outputPath output : String}
    (outputSlashes : Path.rootSlashes outputPath ≠ 2)
    (clientSlashes : Path.rootSlashes output ≠ 2)
    (sameRoot :
      Path.rootSlashes workingDirectory = 2 →
        Path.isAbsolute outputPath = Path.isAbsolute output) :
    Path.absoluteSlashes workingDirectory outputPath =
      Path.absoluteSlashes workingDirectory output := by
  unfold Path.absoluteSlashes
  cases ofOutput : Path.isAbsolute outputPath <;> cases ofClient : Path.isAbsolute output
  case false.false =>
    rfl
  case true.true =>
    exact (Path.rootSlashes_eq_one ofOutput outputSlashes).trans
      (Path.rootSlashes_eq_one ofClient clientSlashes).symm
  case true.false =>
    have single : Path.rootSlashes workingDirectory = 1 :=
      Path.rootSlashes_eq_one rooted fun doubled => by
        simp [ofOutput, ofClient, doubled] at sameRoot
    exact (Path.rootSlashes_eq_one ofOutput outputSlashes).trans single.symm
  case false.true =>
    have single : Path.rootSlashes workingDirectory = 1 :=
      Path.rootSlashes_eq_one rooted fun doubled => by
        simp [ofOutput, ofClient, doubled] at sameRoot
    exact single.trans (Path.rootSlashes_eq_one ofClient clientSlashes).symm

/-- The two ends of the way to the client lie behind the same slashes, and the segments of both lead
down. -/
structure IsClientWay
    (workingDirectory : String)
    (context : Context)
    (unit : SchemaUnit)
    (output : String)
    (slashes : Nat)
    (start target : List String) :
    Prop where
  atRoot : slashes ≠ 0
  atMostTwo : slashes ≤ 2
  startDescends : ∀ name ∈ start, Path.Descends name
  targetDescends : ∀ name ∈ target, Path.Descends name
  directory :
    unit.absoluteDirectory workingDirectory context = Path.ofSegments slashes start
  client : Path.absolute workingDirectory output = Path.ofSegments slashes target
  specifier :
    unit.clientSpecifier workingDirectory context =
      pointed (Path.ofSegments 0 (Path.climb start target))

theorem exists_isClientWay
    {workingDirectory : String}
    (rooted : Path.isAbsolute workingDirectory = true)
    {context : Context}
    {output : String}
    (isOutput : context.client.output = some output)
    (filled : output ≠ "")
    (sameSlashes :
      Path.absoluteSlashes workingDirectory context.outputPath =
        Path.absoluteSlashes workingDirectory output)
    (unit : SchemaUnit) :
    ∃ slashes start target,
      IsClientWay workingDirectory context unit output slashes start target := by
  obtain ⟨start, startDescends, isStart⟩ :=
    Path.exists_absolute_eq rooted (Path.join context.schemasPath unit.directory)
  obtain ⟨target, targetDescends, isTarget⟩ := Path.exists_absolute_eq rooted output
  rw [unit.absoluteSlashes_schemas, sameSlashes] at isStart
  have atRoot := Path.absoluteSlashes_ne_zero rooted output
  have place : clientPlace context = output := by
    simp [clientPlace, isOutput, filled]
  refine ⟨_, start, target, atRoot, Path.absoluteSlashes_le_two workingDirectory output,
    startDescends, targetDescends, isStart, isTarget, ?_⟩
  rw [clientSpecifier, place, specifier_of_ne_empty filled, isStart, isTarget,
    Path.segments_ofSegments_of_descends atRoot startDescends,
    Path.segments_ofSegments_of_descends atRoot targetDescends]

section Way

variable {workingDirectory : String} {context : Context} {unit : SchemaUnit} {output : String}
variable {slashes : Nat} {start target : List String}

theorem IsClientWay.isAbsolute_specifier
    (way : IsClientWay workingDirectory context unit output slashes start target) :
    Path.isAbsolute (unit.clientSpecifier workingDirectory context) = false := by
  rw [way.specifier, isAbsolute_pointed]

theorem IsClientWay.specifier_ne_empty
    (way : IsClientWay workingDirectory context unit output slashes start target) :
    unit.clientSpecifier workingDirectory context ≠ "" := by
  intro isEmpty
  have head := head?_pointed (Path.ofSegments 0 (Path.climb start target))
  rw [← way.specifier, isEmpty] at head
  contradiction

theorem IsClientWay.leads
    (way : IsClientWay workingDirectory context unit output slashes start target) :
    Path.normalSegments true
        (start ++ Path.segments (unit.clientSpecifier workingDirectory context)) =
      target := by
  rw [way.specifier, normalSegments_pointed,
    Path.normalSegments_ofSegments_climb true way.startDescends way.targetDescends]

end Way

theorem hostPlace_cases
    {workingDirectory : String}
    (rooted : Path.isAbsolute workingDirectory = true)
    {context : Context}
    {output : String}
    (isOutput : context.client.output = some output)
    (custom : context.client.hasCustomOutput = true)
    (filled : output ≠ "")
    (sameSlashes :
      Path.absoluteSlashes workingDirectory context.outputPath =
        Path.absoluteSlashes workingDirectory output)
    (unit : SchemaUnit) :
    (context.AddsEntry (unit.clientSpecifier workingDirectory context) →
        unit.hostPlace workingDirectory context =
          Path.join (Path.absolute workingDirectory output) "client") ∧
      (¬ context.AddsEntry (unit.clientSpecifier workingDirectory context) →
        unit.hostPlace workingDirectory context = Path.absolute workingDirectory output) := by
  obtain ⟨slashes, start, target, way⟩ :=
    exists_isClientWay rooted isOutput filled sameSlashes unit
  have module :
      unit.hostModule workingDirectory context =
        withClientEntry context (unit.clientSpecifier workingDirectory context) := by
    rw [hostModule, if_pos custom, clientSpecifier]
  rw [hostPlace, way.directory, way.client, module]
  constructor
  · intro adds
    have entry : Path.Descends "client" :=
      ⟨⟨by decide, by decide⟩, by decide, by decide⟩
    rw [withClientEntry_of_addsEntry adds,
      Path.join_ofSegments way.atRoot (fun name member => (way.targetDescends name member).segment)
        entry.segment]
    refine Path.normalize_join_ofSegments way.atRoot way.atMostTwo way.startDescends ?_ ?_
    · rw [String.append_assoc, Path.isAbsolute_append_of_ne_empty way.specifier_ne_empty,
        way.isAbsolute_specifier]
    · rw [Path.segments_append_slash, Path.segments_of_isSegment entry.segment,
        ← List.append_assoc, Path.normalSegments_append _ (by simpa using entry), way.leads]
  · intro keeps
    rw [withClientEntry_of_not_addsEntry keeps]
    exact Path.normalize_join_ofSegments way.atRoot way.atMostTwo way.startDescends
      way.isAbsolute_specifier way.leads

/-- Followed from the directory of a unit's module, the import of the host types leads to the
client, or to its entry where that is added.  So all units import them from the same place, as far
as they agree about the entry.  Paths start with at most one slash; a working directory, which the
system gives so as well, may have a second one if it counts for both paths or for neither. -/
theorem hostPlace_eq_client
    {workingDirectory : String}
    (rooted : Path.isAbsolute workingDirectory = true)
    {context : Context}
    {output : String}
    (isOutput : context.client.output = some output)
    (custom : context.client.hasCustomOutput = true)
    (filled : output ≠ "")
    (outputSlashes : Path.rootSlashes context.outputPath ≠ 2)
    (clientSlashes : Path.rootSlashes output ≠ 2)
    (sameRoot :
      Path.rootSlashes workingDirectory = 2 →
        Path.isAbsolute context.outputPath = Path.isAbsolute output) :
    (∀ unit : SchemaUnit,
      (context.AddsEntry (unit.clientSpecifier workingDirectory context) →
          unit.hostPlace workingDirectory context =
            Path.join (Path.absolute workingDirectory output) "client") ∧
        (¬ context.AddsEntry (unit.clientSpecifier workingDirectory context) →
          unit.hostPlace workingDirectory context = Path.absolute workingDirectory output)) ∧
      ∀ unit other : SchemaUnit,
        (context.AddsEntry (unit.clientSpecifier workingDirectory context) ↔
            context.AddsEntry (other.clientSpecifier workingDirectory context)) →
          unit.hostPlace workingDirectory context = other.hostPlace workingDirectory context := by
  have sameSlashes := absoluteSlashes_client rooted outputSlashes clientSlashes sameRoot
  have leads := hostPlace_cases rooted isOutput custom filled sameSlashes
  refine ⟨leads, fun unit other agree => ?_⟩
  by_cases adds : context.AddsEntry (unit.clientSpecifier workingDirectory context)
  · rw [(leads unit).1 adds, (leads other).1 (agree.mp adds)]
  · rw [(leads unit).2 adds, (leads other).2 (mt agree.mpr adds)]

/-- The default context with another client, next to the working directory. -/
def contextWithClient (provider : String) : Context :=
  { Context.default with client := ⟨provider, some "../db/./prisma/", none, none, none⟩ }

/-- A unit without an expression. -/
def bareUnit (kind : UnitKind) : SchemaUnit :=
  ⟨kind, "User", none, none, []⟩

theorem hostPlace_eq_client_besideWork :
    Path.isAbsolute "/work/project" = true ∧
      (contextWithClient "prisma-client").client.output = some "../db/./prisma/" ∧
      (contextWithClient "prisma-client").client.hasCustomOutput = true ∧
      "../db/./prisma/" ≠ "" ∧
      Path.rootSlashes (contextWithClient "prisma-client").outputPath ≠ 2 ∧
      Path.rootSlashes "../db/./prisma/" ≠ 2 ∧
      Path.rootSlashes "/work/project" ≠ 2 ∧
      (contextWithClient "prisma-client").AddsEntry
        ((bareUnit .object).clientSpecifier "/work/project" (contextWithClient "prisma-client")) ∧
      (bareUnit .object).hostPlace "/work/project" (contextWithClient "prisma-client") =
        "/work/db/prisma/client" ∧
      (bareUnit .operation).hostPlace "/work/project" (contextWithClient "prisma-client") =
        (bareUnit .object).hostPlace "/work/project" (contextWithClient "prisma-client") := by
  have rooted : Path.isAbsolute "/work/project" = true := by
    decide
  have custom : (contextWithClient "prisma-client").client.hasCustomOutput = true := by
    decide
  have filled : "../db/./prisma/" ≠ "" := by
    decide
  have outputSlashes : Path.rootSlashes (contextWithClient "prisma-client").outputPath ≠ 2 := by
    decide
  have clientSlashes : Path.rootSlashes "../db/./prisma/" ≠ 2 := by
    decide
  have single : Path.rootSlashes "/work/project" ≠ 2 := by
    decide
  have ofObject :
      (bareUnit .object).clientSpecifier "/work/project" (contextWithClient "prisma-client") =
        "../../../../db/prisma" := by
    decide +kernel
  have ofOperation :
      (bareUnit .operation).clientSpecifier "/work/project" (contextWithClient "prisma-client") =
        "../../../db/prisma" := by
    decide +kernel
  have objectAdds :
      (contextWithClient "prisma-client").AddsEntry
        ((bareUnit .object).clientSpecifier "/work/project"
          (contextWithClient "prisma-client")) := by
    rw [ofObject]
    exact ⟨by decide, by decide, by decide⟩
  have operationAdds :
      (contextWithClient "prisma-client").AddsEntry
        ((bareUnit .operation).clientSpecifier "/work/project"
          (contextWithClient "prisma-client")) := by
    rw [ofOperation]
    exact ⟨by decide, by decide, by decide⟩
  obtain ⟨leads, agree⟩ :=
    @hostPlace_eq_client "/work/project" rooted (contextWithClient "prisma-client") _ rfl custom
      filled outputSlashes clientSlashes fun doubled => absurd doubled single
  have place :
      Path.join (Path.absolute "/work/project" "../db/./prisma/") "client" =
        "/work/db/prisma/client" := by
    decide +kernel
  refine ⟨rooted, rfl, custom, filled, outputSlashes, clientSlashes, single, objectAdds, ?_, ?_⟩
  · exact ((leads (bareUnit .object)).1 objectAdds).trans place
  · exact agree _ _ (iff_of_true operationAdds objectAdds)

end SchemaUnit

end ZodSchemas
