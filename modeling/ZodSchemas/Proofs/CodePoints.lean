import Mathlib.Algebra.Ring.Nat
import ZodSchemas.FileTree.Basic
import ZodSchemas.Proofs.Paths

namespace ZodSchemas

/-!
# Code points of joined texts

A string that code points are kept as ends no mark without its character.  So
the code points of two such strings, one behind the other, are those of both,
and what the text of a path may hold the text of its parent holds as well.
-/

namespace Text

/-- The strings that code points are kept as. -/
def IsText (string : String) : Prop :=
  ∃ codes, string = ofCodePoints codes

/-- What has been read stays in front. -/
theorem codesBehind_append
    (read earlier : List Nat)
    (chars : List Char) :
    codesBehind (read ++ earlier) chars = earlier.reverse ++ codesBehind read chars := by
  fun_induction codesBehind read chars with
  | case1 read =>
      simp [codesBehind]
  | case2 read char =>
      simp [codesBehind]
  | case3 read next rest inductionHypothesis =>
      rw [codesBehind, if_pos rfl]
      exact inductionHypothesis
  | case4 read char next rest noMark inductionHypothesis =>
      rw [codesBehind, if_neg noMark]
      exact inductionHypothesis

/-- The stand-in of a half lies behind it. -/
theorem toNat_standIn
    {code : Nat}
    (isHalf : isHalf code = true) :
    (Char.ofNat (code + standInOffset)).toNat = code + standInOffset := by
  have inRange : 0xD800 ≤ code ∧ code ≤ 0xDFFF := by
    simp only [Text.isHalf, isHighHalf, isLowHalf, Bool.or_eq_true, Bool.and_eq_true,
      decide_eq_true_eq] at isHalf
    omega
  have valid : (code + standInOffset).isValidChar := by
    unfold standInOffset Nat.isValidChar
    omega
  rw [Char.ofNat, dif_pos valid]
  rfl

/-- The stand-in of a half is not the mark. -/
theorem standIn_ne_selfMark
    {code : Nat}
    (isHalf : isHalf code = true) :
    Char.ofNat (code + standInOffset) ≠ selfMark := by
  intro same
  have sameCode : code + standInOffset = 0x10D7FF := by
    rw [← toNat_standIn isHalf, same]
    rfl
  simp only [Text.isHalf, isHighHalf, isLowHalf, Bool.or_eq_true, Bool.and_eq_true,
    decide_eq_true_eq] at isHalf
  unfold standInOffset at sameCode
  omega

/-- A character is no half of a pair. -/
theorem isHalf_toNat
    (char : Char) :
    isHalf char.toNat = false := by
  have valid : char.toNat.isValidChar := char.valid
  simp only [isHalf, isHighHalf, isLowHalf, Bool.or_eq_false_iff, Bool.and_eq_false_iff,
    decide_eq_false_iff_not]
  unfold Nat.isValidChar at valid
  omega

/-- A character behind the mark stands for itself. -/
theorem codesBehind_selfMark_cons
    (char : Char)
    (rest : List Char) :
    codesBehind [] (selfMark :: char :: rest) = char.toNat :: codesBehind [] rest := by
  rw [codesBehind, if_pos rfl]
  exact codesBehind_append [] [char.toNat] rest

/-- A character other than the mark is read alone. -/
theorem codesBehind_cons_of_ne_selfMark
    {char : Char}
    (noMark : char ≠ selfMark)
    (rest : List Char) :
    codesBehind [] (char :: rest) = codeOf char :: codesBehind [] rest := by
  cases rest with
  | nil =>
      rfl
  | cons next rest =>
      rw [codesBehind, if_neg noMark]
      exact codesBehind_append [] [codeOf char] (next :: rest)

/-- What a code point is kept as is read as one code point, whatever follows it; halves are read as
halves. -/
theorem codesBehind_kept_append
    (code : Nat) :
    ∃ other, isHalf other = isHalf code ∧
      ∀ rest, codesBehind [] (kept code ++ rest) = other :: codesBehind [] rest := by
  unfold kept
  split
  · rename_i half
    refine ⟨_, ?_, codesBehind_cons_of_ne_selfMark (standIn_ne_selfMark half)⟩
    rw [codeOf, toNat_standIn half, Nat.add_sub_cancel, if_pos half]
  · rename_i noHalf
    rw [Bool.not_eq_true] at noHalf
    split
    · refine ⟨_, ?_, codesBehind_selfMark_cons (Char.ofNat code)⟩
      rw [isHalf_toNat, noHalf]
    · rename_i free
      simp only [isReserved, Bool.or_eq_true, not_or, beq_iff_eq] at free
      refine ⟨_, ?_, codesBehind_cons_of_ne_selfMark free.1⟩
      rw [codeOf, if_neg free.2, isHalf_toNat, noHalf]

/-- What a character is kept as is read as its code point. -/
theorem codesBehind_kept_toNat
    (char : Char)
    (rest : List Char) :
    codesBehind [] (kept char.toNat ++ rest) = char.toNat :: codesBehind [] rest := by
  rw [kept, if_neg (by simp [isHalf_toNat]), Char.ofNat_toNat]
  split
  · exact codesBehind_selfMark_cons char rest
  · rename_i free
    simp only [isReserved, Bool.or_eq_true, not_or, beq_iff_eq] at free
    rw [List.singleton_append, codesBehind_cons_of_ne_selfMark free.1, codeOf, if_neg free.2]

/-- A text of characters has their code points. -/
theorem codePoints_ofChars
    (chars : List Char) :
    codePoints (ofChars chars) = chars.map Char.toNat := by
  rw [codePoints, ofChars, ofCodePoints, String.toList_ofList]
  induction chars with
  | nil =>
      rfl
  | cons char chars inductionHypothesis =>
      rw [List.map_cons, List.flatMap_cons, codesBehind_kept_toNat, inductionHypothesis]

/-- Characters before the first mark belong to the first part. -/
theorem partsAt_append
    {mark : Char}
    {chars : List Char}
    (noMark : mark ∉ chars)
    (rest : List Char) :
    partsAt mark (chars ++ rest) = (partsAt mark rest).modifyHead (chars ++ ·) := by
  induction chars with
  | nil =>
      cases split : partsAt mark rest <;> simp [split]
  | cons char chars inductionHypothesis =>
      rw [List.mem_cons, not_or] at noMark
      rw [List.cons_append, partsAt, if_neg (Ne.symm noMark.1), inductionHypothesis noMark.2]
      cases split : partsAt mark rest with
      | nil =>
          rw [partsAt_eq_splitOn] at split
          exact absurd split (List.splitOn_ne_nil mark rest)
      | cons first others =>
          rfl

/-- A slash is kept for nothing but itself. -/
theorem kept_eq_of_slash_mem
    {code : Nat}
    (member : '/' ∈ kept code) :
    kept code = ['/'] := by
  unfold kept at member ⊢
  split at member
  · rename_i half
    rw [if_pos half, List.mem_singleton.mp member]
  · rename_i noHalf
    rw [if_neg noHalf]
    split at member
    · rename_i reserved
      rcases List.mem_cons.mp member with isMark | isLast
      · exact absurd isMark (by decide)
      · rw [← List.mem_singleton.mp isLast] at reserved
        exact absurd reserved (by decide)
    · rename_i free
      rw [if_neg free, List.mem_singleton.mp member]

namespace IsText

theorem append
    {first second : String}
    (isText : IsText first)
    (isTextToo : IsText second) :
    IsText (first ++ second) := by
  obtain ⟨codes, rfl⟩ := isText
  obtain ⟨others, rfl⟩ := isTextToo
  exact ⟨codes ++ others, by simp [ofCodePoints, List.flatMap_append, String.ofList_append]⟩

/-- The code points of two texts, one behind the other, are those of both. -/
theorem codePoints_append
    {first : String}
    (isText : IsText first)
    (second : String) :
    codePoints (first ++ second) = codePoints first ++ codePoints second := by
  obtain ⟨codes, rfl⟩ := isText
  have behind (rest : List Char) :
      codesBehind [] (codes.flatMap kept ++ rest) =
        codesBehind [] (codes.flatMap kept) ++ codesBehind [] rest := by
    induction codes with
    | nil =>
        rfl
    | cons code codes inductionHypothesis =>
        obtain ⟨other, -, reads⟩ := codesBehind_kept_append code
        rw [List.flatMap_cons, List.append_assoc, reads, reads, inductionHypothesis,
          List.cons_append]
  simpa only [codePoints, ofCodePoints, String.toList_append, String.toList_ofList] using
    behind second.toList

/-- The parts of a text between slashes are texts. -/
theorem of_mem_segments
    {path name : String}
    (isText : IsText path)
    (member : name ∈ Path.segments path) :
    IsText name := by
  have parts (codes : List Nat) :
      ∀ part ∈ partsAt '/' (codes.flatMap kept), ∃ others : List Nat,
        part = others.flatMap kept := by
    induction codes with
    | nil =>
        intro part isPart
        exact ⟨[], List.mem_singleton.mp isPart⟩
    | cons code codes inductionHypothesis =>
        intro part isPart
        rw [List.flatMap_cons] at isPart
        by_cases slash : '/' ∈ kept code
        · rw [kept_eq_of_slash_mem slash, List.singleton_append, partsAt, if_pos rfl] at isPart
          rcases List.mem_cons.mp isPart with isFirst | later
          · exact ⟨[], isFirst⟩
          · exact inductionHypothesis part later
        · rw [partsAt_append slash] at isPart
          cases split : partsAt '/' (codes.flatMap kept) with
          | nil =>
              rw [split] at isPart
              contradiction
          | cons first others =>
              rw [split, List.modifyHead_cons] at isPart
              rw [split] at inductionHypothesis
              rcases List.mem_cons.mp isPart with isFirst | later
              · obtain ⟨firstCodes, isFlat⟩ := inductionHypothesis first (.head _)
                exact ⟨code :: firstCodes, by rw [isFirst, isFlat, List.flatMap_cons]⟩
              · exact inductionHypothesis part (.tail _ later)
  obtain ⟨codes, rfl⟩ := isText
  obtain ⟨part, inFilter, rfl⟩ := List.mem_map.mp member
  have isPart := (List.mem_filter.mp inFilter).1
  rw [ofCodePoints, String.toList_ofList] at isPart
  obtain ⟨others, isFlat⟩ := parts codes part isPart
  exact ⟨others, congrArg String.ofList isFlat⟩

theorem slash : IsText "/" :=
  ⟨[47], by decide⟩

/-- Texts joined by slashes are a text. -/
theorem intercalate
    {names : List String}
    (areTexts : ∀ name ∈ names, IsText name) :
    IsText ("/".intercalate names) := by
  induction names with
  | nil =>
      exact ⟨[], rfl⟩
  | cons name rest inductionHypothesis =>
      rw [List.forall_mem_cons] at areTexts
      by_cases isLast : rest = []
      · rw [isLast, String.intercalate_singleton]
        exact areTexts.1
      · rw [String.intercalate_cons_of_ne_nil isLast]
        exact (areTexts.1.append slash).append (inductionHypothesis areTexts.2)

end IsText

theorem nameSize_eq_sum
    (name : String) :
    nameSize name =
      ((codePoints name).map fun code =>
        if isByteHalf code then 1 else (encodeCode code).length).sum := by
  rw [nameSize, List.sum_eq_foldl, List.foldl_map]

/-- A name is no shorter than a text at its front. -/
theorem IsText.nameSize_le
    {first : String}
    (isText : IsText first)
    (second : String) :
    nameSize first ≤ nameSize (first ++ second) := by
  rw [nameSize_eq_sum, nameSize_eq_sum, isText.codePoints_append, List.map_append, List.sum_append]
  exact Nat.le_add_right _ _

theorem IsText.isNameable_of_append
    {first second : String}
    (isText : IsText first)
    (nameable : isNameable (first ++ second) = true) :
    isNameable first = true := by
  rw [isNameable, isText.codePoints_append, List.all_append, Bool.and_eq_true] at nameable
  exact nameable.1

end Text

namespace FilePath

/-- What is wrong with the text of a path, whatever a tree holds. -/
def fault? (path : FilePath) : Option FileFault :=
  if !Text.isNameable path.text then some .notUnicode
  else if path.text.toList.contains '\x00' then some .nullByte
  else if FileTree.pathLimit < Text.nameSize path.text then
    some (.refused .nameTooLong path.text)
  else none

theorem fault?_eq_none_iff
    {path : FilePath} :
    path.fault? = none ↔
      Text.isNameable path.text = true ∧ '\x00' ∉ path.text.toList ∧
        Text.nameSize path.text ≤ FileTree.pathLimit := by
  unfold fault?
  split
  · simp_all
  · split
    · simp_all
    · split <;> simp_all

theorem fault?_cases
    {path : FilePath}
    {fault : FileFault}
    (found : path.fault? = some fault) :
    fault = .notUnicode ∨ fault = .nullByte ∨ fault = .refused .nameTooLong path.text := by
  unfold fault? at found
  split at found
  · exact .inl (Option.some.inj found).symm
  · split at found
    · exact .inr (.inl (Option.some.inj found).symm)
    · split at found
      · exact .inr (.inr (Option.some.inj found).symm)
      · contradiction

/-- The text of a path from the root goes on behind that of its parent. -/
theorem exists_text_eq_append
    {path : FilePath}
    (rooted : path.slashes ≠ 0) :
    ∃ rest, path.text = path.parent.text ++ rest := by
  rcases List.eq_nil_or_concat path.names with isRoot | ⟨outer, name, shape⟩
  · refine ⟨"", ?_⟩
    rw [String.append_empty, text, text, parent, isRoot, List.dropLast_nil]
  · rw [List.concat_eq_append] at shape
    have notEmpty (names : List String) : ¬ (path.slashes = 0 ∧ names.isEmpty = true) :=
      fun both => rooted both.1
    rw [text, text, Path.ofSegments, Path.ofSegments, parent, shape, List.dropLast_concat,
      if_neg (notEmpty _), if_neg (notEmpty _)]
    by_cases single : outer = []
    · refine ⟨name, ?_⟩
      rw [single, List.nil_append, String.intercalate_singleton, String.intercalate_nil,
        String.append_empty]
    · refine ⟨"/" ++ name, ?_⟩
      rw [String.intercalate_append_of_ne_nil single (List.cons_ne_nil name []),
        String.intercalate_singleton, String.append_assoc, String.append_assoc]

theorem isText_text
    {path : FilePath}
    (rooted : path.slashes ≠ 0)
    (areTexts : ∀ name ∈ path.names, Text.IsText name) :
    Text.IsText path.text := by
  rw [text, Path.ofSegments, if_neg fun both => rooted both.1]
  refine Text.IsText.append ⟨List.replicate path.slashes 47, ?_⟩ (.intercalate areTexts)
  have kept : Text.kept 47 = ['/'] := by
    decide
  rw [Text.ofCodePoints, List.flatMap_replicate, kept, List.flatten_replicate_singleton]

/-- A path that can be followed has a parent that can be. -/
theorem fault?_parent
    {path : FilePath}
    (rooted : path.slashes ≠ 0)
    (areTexts : ∀ name ∈ path.names, Text.IsText name)
    (fits : path.fault? = none) :
    path.parent.fault? = none := by
  obtain ⟨rest, shape⟩ := exists_text_eq_append rooted
  have isText : Text.IsText path.parent.text :=
    @isText_text path.parent rooted fun name member =>
      areTexts name (List.dropLast_subset _ member)
  rw [fault?_eq_none_iff, shape] at fits
  obtain ⟨nameable, noNull, short⟩ := fits
  rw [fault?_eq_none_iff]
  refine ⟨isText.isNameable_of_append nameable, fun null => noNull ?_,
    Nat.le_trans (isText.nameSize_le rest) short⟩
  rw [String.toList_append]
  exact List.mem_append_left _ null

end FilePath

end ZodSchemas
