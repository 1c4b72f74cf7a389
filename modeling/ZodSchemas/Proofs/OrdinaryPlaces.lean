import ZodSchemas.Proofs.ExportRuns

namespace ZodSchemas

/-!
# Files at ordinary places

Ordinary names lead down, have characters only and no null character.  A file
can be put at a place of such names exactly if the names and the path are short
enough, no file stands on the way, and no directory stands at the place.  All
that changes on the way is that missing directories are made.
-/

open FileTree

/-- A name that any file may have, unless it is too long. -/
structure IsOrdinary (name : String) : Prop where
  descends : Path.Descends name
  whole : Text.IsWholeText name
  noNull : '\x00' ∉ name.toList

/-- Whether a name of ASCII can be a segment and is no dots. -/
def isOrdinaryAscii (name : String) : Bool :=
  Text.isAscii name && !name.toList.contains '/' && !name.toList.contains '\x00'
    && !(["", ".", ".."].contains name)

theorem areOrdinary_of_ascii
    {names : List String}
    (ascii : names.all isOrdinaryAscii = true) :
    ∀ name ∈ names, IsOrdinary name := by
  intro name member
  have isOrdinary := List.all_eq_true.mp ascii name member
  simp only [isOrdinaryAscii, Bool.and_eq_true, Bool.not_eq_true', List.contains_eq_mem,
    decide_eq_false_iff_not, List.mem_cons, List.not_mem_nil, or_false, not_or] at isOrdinary
  obtain ⟨⟨⟨isAscii, noSlash⟩, noNull⟩, notEmpty, notHere, notUp⟩ := isOrdinary
  exact {
    descends := ⟨⟨notEmpty, noSlash⟩, notHere, notUp⟩
    whole := Text.isWholeText_of_ascii isAscii
    noNull := noNull }

namespace FileTree

/-- Whether the names of a place and its path are short enough. -/
structure Fits (place : Place) : Prop where
  names : ∀ name ∈ place, Text.nameSize name ≤ nameLimit
  path : Text.nameSize (FilePath.fromRoot place).text ≤ pathLimit

/-- What keeps a file from being put at a place. -/
inductive Bars (tree : FileTree) (place : Place) : Prop where
  | tooLong (noFit : ¬ Fits place)
  | onTheWay (outer rest : Place) (shape : place = outer ++ rest) (more : rest ≠ [])
      (isFile : tree.directory? outer = some false)
  | atPlace (isDirectory : tree.directory? place = some true)

variable {tree later : FileTree} {place : Place}

/-- What keeps a file from its place stays there. -/
theorem Bars.grow
    (bars : tree.Bars place)
    (grows : tree.GrowsTo later) :
    later.Bars place := by
  cases bars with
  | tooLong noFit =>
      exact .tooLong noFit
  | onTheWay outer rest shape more isFile =>
      exact .onTheWay outer rest shape more (grows outer false isFile)
  | atPlace isDirectory =>
      exact .atPlace (grows place true isDirectory)

/-- Nothing keeps a file from where it stands. -/
theorem IsPlain.not_bars
    (plain : tree.IsPlain)
    (fits : Fits place)
    (isFile : tree.directory? place = some false) :
    ¬ tree.Bars place := by
  rintro (noFit | ⟨outer, rest, rfl, more, onTheWay⟩ | isDirectory)
  · exact noFit fits
  · have nothing : tree.get? (outer ++ rest) = none :=
      plain.get?_append_eq_none (fun isDirectory => by
        rw [directory?_eq_some_true_iff.mpr isDirectory] at onTheWay
        contradiction) more
    rw [directory?_eq_none_iff.mpr nothing] at isFile
    contradiction
  · rw [isDirectory] at isFile
    contradiction

/-- Nothing keeps a file from a directory but one of its name. -/
theorem IsPlain.not_bars_in
    (plain : tree.IsPlain)
    {directory : Place}
    (isThere : tree.get? directory = some .directory)
    {name : String}
    (fits : Fits (directory ++ [name]))
    (free : tree.directory? (directory ++ [name]) ≠ some true) :
    ¬ tree.Bars (directory ++ [name]) := by
  rintro (noFit | ⟨outer, rest, shape, more, isFile⟩ | isDirectory)
  · exact noFit fits
  · obtain ⟨inner, last, isLast⟩ : ∃ inner last, rest = inner ++ [last] := by
      rcases List.eq_nil_or_concat rest with isEmpty | ⟨inner, last, isRest⟩
      · exact absurd isEmpty more
      · exact ⟨inner, last, isRest.trans List.concat_eq_append⟩
    rw [isLast, ← List.append_assoc] at shape
    obtain ⟨isOuter, -⟩ := List.append_inj' shape rfl
    have notDirectory : tree.get? outer ≠ some .directory := fun isDirectory => by
      rw [directory?_eq_some_true_iff.mpr isDirectory] at isFile
      contradiction
    by_cases direct : inner = []
    · rw [isOuter, direct, List.append_nil] at isThere
      exact notDirectory isThere
    · rw [isOuter, plain.get?_append_eq_none notDirectory direct] at isThere
      contradiction
  · exact free isDirectory

/-- Two trees that are the same except where a directory has been made and where something has been
written. -/
def DiffersIn (tree : FileTree) (made written : Place → Prop) (later : FileTree) : Prop :=
  ∀ place, later.get? place = tree.get? place ∨
    (tree.get? place = none ∧ later.get? place = some .directory ∧ made place) ∨ written place

namespace DiffersIn

variable {made written : Place → Prop}

theorem refl
    (tree : FileTree) :
    tree.DiffersIn made written tree :=
  fun _ => .inl rfl

theorem unchanged
    (differs : tree.DiffersIn made written later)
    (notMade : ¬ made place)
    (notWritten : ¬ written place) :
    later.get? place = tree.get? place :=
  (differs place).resolve_right fun change =>
    change.elim (fun ⟨_, _, isWay⟩ => notMade isWay) notWritten

theorem mono
    {madeToo writtenToo : Place → Prop}
    (differs : tree.DiffersIn made written later)
    (makes : ∀ place, made place → madeToo place)
    (writes : ∀ place, written place → writtenToo place) :
    tree.DiffersIn madeToo writtenToo later :=
  fun place => (differs place).imp_right fun change =>
    change.imp (fun ⟨nothing, isMade, isWay⟩ => ⟨nothing, isMade, makes place isWay⟩) (writes place)

theorem trans
    {last : FileTree}
    (first : tree.DiffersIn made written later)
    (second : later.DiffersIn made written last) :
    tree.DiffersIn made written last := by
  intro place
  rcases second place with unchanged | ⟨nothing, isMade, isWay⟩ | isWritten
  · rw [unchanged]
    exact first place
  · rcases first place with unchanged | ⟨-, isMadeBefore, -⟩ | isWritten
    · exact .inr (.inl ⟨unchanged ▸ nothing, isMade, isWay⟩)
    · rw [isMadeBefore] at nothing
      contradiction
    · exact .inr (.inr isWritten)
  · exact .inr (.inr isWritten)

end DiffersIn

/-- What making directories changes: directories stand where nothing stood, on the way. -/
theorem differsIn_makeAlong
    (plain : tree.IsPlain)
    {start : Place}
    (isDirectory : tree.get? start = some .directory)
    {names : List String}
    (down : ∀ name ∈ names, name ≠ "..") :
    tree.DiffersIn (· <+: start ++ names) (fun _ => False) (tree.makeAlong start names).1 := by
  induction names generalizing tree start with
  | nil =>
      exact .refl tree
  | cons name names inductionHypothesis =>
      rw [List.forall_mem_cons] at down
      have shape : start ++ name :: names = start ++ [name] ++ names := by
        rw [List.append_assoc, List.singleton_append]
      rw [makeAlong, shape]
      rcases stepTo_cases plain isDirectory name with
        tooLong | ⟨inner, isInner, found⟩ | ⟨bytes, isFile, -⟩ | ⟨isMissing, nothing⟩
      · rw [tooLong]
        exact .refl tree
      · rw [isInner]
        have isDown := place_of_stepTo down.1 isInner
        subst isDown
        exact inductionHypothesis plain found down.2
      · rw [isFile]
        exact .refl tree
      · rw [isMissing]
        have notRoot : start ++ [name] ≠ [] := by
          simp
        have isMade := tree.get?_put_concat start name .directory
        refine .trans ?_
          (inductionHypothesis (plain.put_directory isDirectory name) isMade down.2)
        intro other
        rw [get?_put notRoot]
        split
        · rename_i isPlace
          exact .inr (.inl ⟨isPlace ▸ nothing, rfl, isPlace ▸ List.prefix_append _ _⟩)
        · exact .inl rfl

/-- How making directories on the way ends: all of them are there, or a name is too long, or a file
is in the way. -/
inductive EndsAlong (start : Place) (names : List String) : FileTree × Option Place → Prop where
  | made
      (later : FileTree)
      (short : ∀ name ∈ names, Text.nameSize name ≤ nameLimit) :
      EndsAlong start names (later, some (start ++ names))
  | tooLong
      (later : FileTree)
      {name : String}
      (member : name ∈ names)
      (tooLong : nameLimit < Text.nameSize name) :
      EndsAlong start names (later, none)
  | blocked
      {later : FileTree}
      {inner rest : Place}
      (shape : names = inner ++ rest)
      (isFile : later.directory? (start ++ inner) = some false) :
      EndsAlong start names (later, none)

theorem EndsAlong.behind
    {start : Place}
    {name : String}
    {names : List String}
    {result : FileTree × Option Place}
    (short : Text.nameSize name ≤ nameLimit)
    (ends : EndsAlong (start ++ [name]) names result) :
    EndsAlong start (name :: names) result := by
  have shape (inner : Place) : start ++ [name] ++ inner = start ++ name :: inner := by
    rw [List.append_assoc, List.singleton_append]
  cases ends with
  | made later allShort =>
      rw [shape]
      exact .made later (List.forall_mem_cons.mpr ⟨short, allShort⟩)
  | tooLong later member tooLong =>
      exact .tooLong later (.tail name member) tooLong
  | @blocked later inner rest isShape isFile =>
      rw [shape] at isFile
      exact .blocked (congrArg (name :: ·) isShape) isFile

/-- Where the names are short and no file is in the way, all of the directories are there. -/
theorem EndsAlong.last_eq
    {start : Place}
    {names : List String}
    {result : FileTree × Option Place}
    (ends : EndsAlong start names result)
    (short : ∀ name ∈ names, Text.nameSize name ≤ nameLimit)
    (free : ∀ inner rest, names = inner ++ rest →
      result.1.directory? (start ++ inner) ≠ some false) :
    result.2 = some (start ++ names) := by
  cases ends with
  | made later allShort =>
      rfl
  | tooLong later member tooLong =>
      exact absurd tooLong (Nat.not_lt.mpr (short _ member))
  | blocked shape isFile =>
      exact absurd isFile (free _ _ shape)

/-- Only a long name or a file can keep directories from being made on the way. -/
theorem endsAlong_makeAlong
    (plain : tree.IsPlain)
    {start : Place}
    (isDirectory : tree.get? start = some .directory)
    {names : List String}
    (down : ∀ name ∈ names, name ≠ "..") :
    EndsAlong start names (tree.makeAlong start names) := by
  induction names generalizing tree start with
  | nil =>
      have ends := @EndsAlong.made start [] tree (List.forall_mem_nil _)
      rwa [List.append_nil] at ends
  | cons name names inductionHypothesis =>
      rw [List.forall_mem_cons] at down
      rw [makeAlong]
      rcases @stepTo_down tree start name down.1 with
        ⟨⟨refusal, isError⟩, tooLong⟩ | ⟨isStep, short⟩
      · rw [isError]
        exact .tooLong tree (.head _) tooLong
      · rw [isStep]
        cases found : tree.get? (start ++ [name]) with
        | none =>
            have isMade := tree.get?_put_concat start name .directory
            have stillPlain := plain.put_directory isDirectory name
            exact (inductionHypothesis stillPlain isMade down.2).behind short
        | some entry =>
            cases entry with
            | directory =>
                exact (inductionHypothesis plain found down.2).behind short
            | file bytes =>
                exact .blocked List.singleton_append.symm
                  (plain.directory?_eq_some_false_iff.mpr ⟨bytes, found⟩)
            | link target =>
                exact absurd found (plain.noLink _ _)

end FileTree

/-! ## Texts of ordinary paths -/

theorem not_mem_intercalate
    {char : Char}
    {between : String}
    (notBetween : char ∉ between.toList)
    {texts : List String}
    (inNone : ∀ text ∈ texts, char ∉ text.toList) :
    char ∉ (between.intercalate texts).toList := by
  induction texts with
  | nil =>
      exact List.not_mem_nil
  | cons text rest inductionHypothesis =>
      rw [List.forall_mem_cons] at inNone
      by_cases isLast : rest = []
      · rw [isLast, String.intercalate_singleton]
        exact inNone.1
      · rw [String.intercalate_cons_of_ne_nil isLast, String.toList_append, String.toList_append,
          List.mem_append, List.mem_append, not_or, not_or]
        exact ⟨⟨inNone.1, notBetween⟩, inductionHypothesis inNone.2⟩

namespace FilePath

variable {place : Place}

theorem isWholeText_fromRoot
    (whole : ∀ name ∈ place, Text.IsWholeText name) :
    Text.IsWholeText (fromRoot place).text := by
  have slash : Text.IsWholeText "/" :=
    Text.isWholeText_of_ascii (by decide)
  exact slash.append (slash.intercalate whole)

/-- The only thing that can be wrong with a path of ordinary names is its length. -/
theorem fault?_of_ordinary
    (ordinary : ∀ name ∈ place, IsOrdinary name) :
    (fromRoot place).fault? =
      if FileTree.pathLimit < Text.nameSize (fromRoot place).text then
        some (.refused .nameTooLong (fromRoot place).text)
      else none := by
  have nameable : Text.isNameable (fromRoot place).text = true :=
    Text.isNameable_of_isWhole
      (isWholeText_fromRoot fun name member => (ordinary name member).whole).isWhole
  have noNull : '\x00' ∉ (fromRoot place).text.toList := by
    have inner := not_mem_intercalate (by decide : '\x00' ∉ "/".toList)
      fun name member => (ordinary name member).noNull
    change '\x00' ∉ ("/" ++ "/".intercalate place).toList
    rw [String.toList_append, List.mem_append, not_or]
    exact ⟨by decide, inner⟩
  rw [fault?, if_neg (by simp [nameable]), if_neg (by simpa using noNull)]

theorem nameSize_parent_le
    {directory : Place}
    {name : String}
    (ordinary : ∀ other ∈ directory ++ [name], IsOrdinary other) :
    Text.nameSize (fromRoot directory).text ≤
      Text.nameSize (fromRoot (directory ++ [name])).text := by
  have isParent : (fromRoot (directory ++ [name])).parent = fromRoot directory := by
    simp [parent, fromRoot]
  obtain ⟨rest, shape⟩ := @exists_text_eq_append (fromRoot (directory ++ [name])) Nat.one_ne_zero
  rw [shape, isParent]
  exact (isWholeText_fromRoot fun other member =>
    (ordinary other (List.mem_append_left _ member)).whole).isText.nameSize_le rest

end FilePath

namespace FileTree

variable {tree : FileTree} {place : Place}

/-- What is done for a file at an ordinary place: only missing directories are made above it, and it
is aimed at its place unless something bars it. -/
structure IsReady (tree later : FileTree) (place : Place) (aim : Aim) : Prop where
  aimed : tree.IsAimed later aim
  ends : aim = .found place ∧ Fits place ∨ aim = .refused ∧ later.Bars place
  frame : tree.DiffersIn (· <+: place.dropLast) (fun _ => False) later

/-- A file with an ordinary name is aimed at its place unless something bars it. -/
theorem aimFrom_cases
    (plain : tree.IsPlain)
    {directory : Place}
    {name : String}
    (ordinary : ∀ other ∈ directory ++ [name], IsOrdinary other)
    (short : ∀ other ∈ directory, Text.nameSize other ≤ nameLimit) :
    tree.aimFrom directory (.fromRoot (directory ++ [name])) = .found (directory ++ [name]) ∧
        Fits (directory ++ [name]) ∨
      tree.aimFrom directory (.fromRoot (directory ++ [name])) = .refused ∧
        tree.Bars (directory ++ [name]) := by
  have down : name ≠ ".." := (ordinary name (by simp)).descends.notUp
  have isLast : (FilePath.fromRoot (directory ++ [name])).names.getLast? = some name :=
    List.getLast?_concat
  rw [aimFrom, FilePath.fault?_of_ordinary ordinary]
  split
  · rename_i fault isFault
    split at isFault
    · rename_i tooLong
      cases isFault
      exact .inr ⟨rfl, .tooLong fun fits => Nat.not_lt.mpr fits.path tooLong⟩
    · contradiction
  · rename_i isFault
    split at isFault
    · contradiction
    · rename_i pathShort
      rw [isLast, aimIn]
      rcases @stepTo_down tree directory name down with
        ⟨⟨refusal, isError⟩, tooLong⟩ | ⟨isStep, nameShort⟩
      · rw [isError]
        exact .inr ⟨rfl, .tooLong fun fits =>
          Nat.not_lt.mpr (fits.names name (by simp)) tooLong⟩
      · have fits : Fits (directory ++ [name]) :=
          ⟨List.forall_mem_append.mpr ⟨short, List.forall_mem_singleton.mpr nameShort⟩,
            Nat.not_lt.mp pathShort⟩
        rw [isStep]
        cases found : tree.get? (directory ++ [name]) with
        | none =>
            exact .inl ⟨rfl, fits⟩
        | some entry =>
            cases entry with
            | directory =>
                exact .inr ⟨rfl, .atPlace (directory?_eq_some_true_iff.mpr found)⟩
            | file bytes =>
                exact .inl ⟨rfl, fits⟩
            | link target =>
                exact absurd found (plain.noLink _ _)

theorem isReady_aim
    (plain : tree.IsPlain)
    {directory : Place}
    {name : String}
    (ordinary : ∀ other ∈ directory ++ [name], IsOrdinary other) :
    IsReady tree (tree.aim (.fromRoot (directory ++ [name])) true).1 (directory ++ [name])
      (tree.aim (.fromRoot (directory ++ [name])) true).2 := by
  have aimed := isAimed_aim plain (.fromRoot (directory ++ [name])) true
  have ordinaryToo : ∀ other ∈ directory, IsOrdinary other := fun other member =>
    ordinary other (List.mem_append_left _ member)
  have down : ∀ other ∈ directory, other ≠ ".." := fun other member =>
    (ordinaryToo other member).descends.notUp
  have isParent : (FilePath.fromRoot (directory ++ [name])).parent = .fromRoot directory := by
    simp [FilePath.parent, FilePath.fromRoot]
  have isOuter : (FilePath.fromRoot (directory ++ [name])).names.dropLast = directory :=
    List.dropLast_concat
  unfold aim at aimed ⊢
  rw [isParent, isOuter] at aimed ⊢
  cases faulty : (FilePath.fromRoot directory).fault? with
  | some fault =>
      rw [faulty] at aimed
      rw [FilePath.fault?_of_ordinary ordinaryToo] at faulty
      split at faulty
      · rename_i tooLong
        cases faulty
        refine ⟨aimed, .inr ⟨rfl, .tooLong fun fits => ?_⟩, .refl tree⟩
        exact Nat.not_lt.mpr (Nat.le_trans (FilePath.nameSize_parent_le ordinary) fits.path) tooLong
      · contradiction
  | none =>
      rw [faulty] at aimed
      have framed := differsIn_makeAlong plain tree.get?_root down
      obtain ⟨stillPlain, -, -⟩ := makeAlong_spec plain tree.get?_root directory
      have ends := endsAlong_makeAlong plain tree.get?_root down
      dsimp only at aimed ⊢
      rcases along : tree.makeAlong [] directory with ⟨later, last⟩
      rw [along] at aimed framed ends stillPlain
      have frame :
          tree.DiffersIn (· <+: (directory ++ [name]).dropLast) (fun _ => False) later := by
        rw [List.dropLast_concat]
        exact framed
      cases ends with
      | made later short =>
          exact ⟨aimed, aimFrom_cases stillPlain ordinary short, frame⟩
      | tooLong later member tooLong =>
          refine ⟨aimed, .inr ⟨rfl, .tooLong fun fits => ?_⟩, frame⟩
          exact Nat.not_lt.mpr (fits.names _ (List.mem_append_left _ member)) tooLong
      | @blocked later inner rest shape isFile =>
          subst shape
          refine ⟨aimed, .inr ⟨rfl, ?_⟩, frame⟩
          exact .onTheWay inner (rest ++ [name]) (List.append_assoc _ _ _) (by simp) isFile

/-- What writing a file at an ordinary place leaves. -/
structure IsPut (tree later : FileTree) (place : Place) (bytes : List UInt8) (aim : Aim) :
    Prop where
  plain : later.IsPlain
  grows : tree.GrowsTo later
  ends : aim = .found place ∧ Fits place ∧ later.get? place = some (.file bytes) ∨
    aim = .refused ∧ later.Bars place
  frame : tree.DiffersIn (· <+: place.dropLast)
    (fun other => aim = .found place ∧ other = place) later

theorem IsReady.hit
    {later : FileTree}
    {aim : Aim}
    (ready : IsReady tree later place aim)
    (bytes : List UInt8) :
    IsPut tree (later.hit bytes aim) place bytes aim where
  plain := ready.aimed.plain_hit bytes
  grows := ready.aimed.grows.trans (ready.aimed.grows_hit bytes)
  ends := by
    rcases ready.ends with ⟨rfl, fits⟩ | ⟨rfl, bars⟩
    · obtain ⟨directory, name, shape, -, -⟩ := ready.aimed.free place rfl
      refine .inl ⟨rfl, fits, ?_⟩
      rw [FileTree.hit, get?_put (by simp [shape]), if_pos rfl]
    · exact .inr ⟨rfl, bars⟩
  frame := by
    have before := ready.frame.mono (fun _ isWay => isWay)
      (fun _ isFalse => isFalse.elim : ∀ other, False → aim = .found place ∧ other = place)
    refine before.trans fun other => ?_
    rcases ready.ends with ⟨rfl, -⟩ | ⟨rfl, -⟩
    · obtain ⟨directory, name, shape, -, -⟩ := ready.aimed.free place rfl
      rw [FileTree.hit, get?_put (by simp [shape])]
      split
      · rename_i isPlace
        exact .inr (.inr ⟨rfl, isPlace⟩)
      · exact .inl rfl
    · exact .inl rfl

/-- What stands as a file at another place is not touched. -/
theorem IsPut.get?_of_ne
    {later : FileTree}
    {bytes others : List UInt8}
    {aim : Aim}
    (isPut : IsPut tree later place bytes aim)
    {other : Place}
    (apart : other ≠ place)
    (isFile : tree.get? other = some (.file others)) :
    later.get? other = some (.file others) := by
  rcases isPut.frame other with unchanged | ⟨nothing, -, -⟩ | ⟨-, same⟩
  · rw [unchanged, isFile]
  · rw [isFile] at nothing
    contradiction
  · exact absurd same apart

end FileTree

end ZodSchemas
