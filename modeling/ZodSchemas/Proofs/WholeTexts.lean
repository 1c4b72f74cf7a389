import ZodSchemas.Export.Manifest
import ZodSchemas.Proofs.CodePoints

namespace ZodSchemas

/-!
# Texts of characters

A text without halves of surrogate pairs can be written.  Joining and quoting
such texts gives such texts, so a manifest can be written if the texts that it
holds can, whatever its time is.
-/

namespace Text

theorem codePoints_ofCodePoints
    (codes : List Nat) :
    ∃ others : List Nat,
      codePoints (ofCodePoints codes) = others ∧ others.any isHalf = codes.any isHalf := by
  refine ⟨_, rfl, ?_⟩
  rw [codePoints, ofCodePoints, String.toList_ofList]
  induction codes with
  | nil =>
      rfl
  | cons code codes inductionHypothesis =>
      obtain ⟨other, isAlike, reads⟩ := codesBehind_kept_append code
      rw [List.flatMap_cons, reads, List.any_cons, List.any_cons, isAlike, inductionHypothesis]

/-- A text of characters, which all have bytes. -/
structure IsWholeText (string : String) : Prop where
  isText : IsText string
  isWhole : isWhole string = true

theorem isWholeText_iff
    {string : String} :
    IsWholeText string ↔
      ∃ codes, (∀ code ∈ codes, isHalf code = false) ∧ string = ofCodePoints codes := by
  constructor
  · rintro ⟨⟨codes, rfl⟩, isWhole⟩
    obtain ⟨others, isRead, alike⟩ := codePoints_ofCodePoints codes
    rw [Text.isWhole, isRead, alike, Bool.not_eq_true', List.any_eq_false] at isWhole
    exact ⟨codes, fun code member => by simpa using isWhole code member, rfl⟩
  · rintro ⟨codes, noHalf, rfl⟩
    refine ⟨⟨codes, rfl⟩, ?_⟩
    obtain ⟨others, isRead, alike⟩ := codePoints_ofCodePoints codes
    rw [isWhole, isRead, alike, Bool.not_eq_true', List.any_eq_false]
    exact fun code member => by simp [noHalf code member]

theorem isWhole_append
    {first : String}
    (isText : IsText first)
    (second : String) :
    isWhole (first ++ second) = (isWhole first && isWhole second) := by
  rw [isWhole, isWhole, isWhole, isText.codePoints_append, List.any_append, Bool.not_or]

theorem isNameable_of_isWhole
    {string : String}
    (isWhole : isWhole string = true) :
    isNameable string = true := by
  rw [Text.isWhole, Bool.not_eq_true', List.any_eq_false] at isWhole
  rw [isNameable, List.all_eq_true]
  exact fun code member => by simp [isWhole code member]

/-- A character of ASCII is kept as itself. -/
theorem kept_toNat
    {char : Char}
    (ascii : char.toNat < 0x80) :
    kept char.toNat = [char] := by
  have free : isReserved char = false := by
    have noMark : char ≠ selfMark := by
      rintro rfl
      exact absurd ascii (by decide)
    have below : char.toNat - standInOffset = 0 := by
      unfold standInOffset
      omega
    rw [isReserved, beq_false_of_ne noMark, below]
    rfl
  rw [kept, if_neg (by simp [isHalf_toNat]), Char.ofNat_toNat, if_neg (by simp [free])]

/-- Characters of ASCII are what their code points are kept as. -/
theorem flatMap_kept_of_ascii
    {chars : List Char}
    (ascii : ∀ char ∈ chars, char.toNat < 0x80) :
    (chars.map Char.toNat).flatMap kept = chars := by
  induction chars with
  | nil =>
      rfl
  | cons char chars inductionHypothesis =>
      rw [List.forall_mem_cons] at ascii
      rw [List.map_cons, List.flatMap_cons, kept_toNat ascii.1, inductionHypothesis ascii.2,
        List.singleton_append]

theorem isWholeText_of_forall_ascii
    {string : String}
    (ascii : ∀ char ∈ string.toList, char.toNat < 0x80) :
    IsWholeText string := by
  rw [isWholeText_iff]
  refine ⟨string.toList.map Char.toNat, ?_, ?_⟩
  · intro code member
    obtain ⟨char, -, rfl⟩ := List.mem_map.mp member
    exact isHalf_toNat char
  · rw [ofCodePoints, flatMap_kept_of_ascii ascii, String.ofList_toList]

/-- Whether all characters of a text are ASCII. -/
def isAscii (string : String) : Bool :=
  string.toList.all fun char => char.toNat < 0x80

theorem isWholeText_of_ascii
    {string : String}
    (ascii : isAscii string = true) :
    IsWholeText string :=
  isWholeText_of_forall_ascii fun char member => by
    simpa using List.all_eq_true.mp ascii char member

theorem hexDigits_ascii
    (width value : Nat) :
    ∀ char ∈ hexDigits width value, char.toNat < 0x80 := by
  have digit : ∀ value, value < 16 → (hexDigit value).toNat < 0x80 := by
    decide
  intro char member
  obtain ⟨place, -, rfl⟩ := List.mem_map.mp member
  exact digit _ (Nat.mod_lt _ (by decide))

/-- What a character of ASCII is escaped as is ASCII as well. -/
theorem quotedChar_ascii
    {char : Char}
    (ascii : char.toNat < 0x80) :
    ∀ other ∈ quotedChar char, other.toNat < 0x80 := by
  unfold quotedChar
  iterate 7
    split
    · simp
  split
  · exact List.forall_mem_append.mpr ⟨by simp, hexDigits_ascii 4 char.toNat⟩
  · exact List.forall_mem_singleton.mpr ascii

/-- A character beyond ASCII stands as itself. -/
theorem quotedChar_of_not_ascii
    {char : Char}
    (beyond : 0x80 ≤ char.toNat) :
    quotedChar char = [char] := by
  have differs {other : Char} (ascii : other.toNat < 0x80) : char ≠ other := by
    rintro rfl
    omega
  rw [quotedChar, if_neg (differs (by decide)), if_neg (differs (by decide)),
    if_neg (differs (by decide)), if_neg (differs (by decide)), if_neg (differs (by decide)),
    if_neg (differs (by decide)), if_neg (differs (by decide)), if_neg (by omega)]

/-- Escaping what a code point is kept as keeps code points that are no halves. -/
theorem quotedChar_kept
    {code : Nat}
    (noHalf : isHalf code = false) :
    ∃ others : List Nat, (∀ other ∈ others, isHalf other = false) ∧
      (kept code).flatMap quotedChar = others.flatMap kept := by
  have shape : kept code =
      if isReserved (Char.ofNat code) then [selfMark, Char.ofNat code]
      else [Char.ofNat code] :=
    if_neg (by simp [noHalf])
  by_cases ascii : (Char.ofNat code).toNat < 0x80
  · refine ⟨(quotedChar (Char.ofNat code)).map Char.toNat, ?_, ?_⟩
    · intro other member
      obtain ⟨char, -, rfl⟩ := List.mem_map.mp member
      exact isHalf_toNat char
    · rw [flatMap_kept_of_ascii (quotedChar_ascii ascii)]
      have isKept := kept_toNat ascii
      rw [kept, if_neg (by simp [isHalf_toNat]), Char.ofNat_toNat] at isKept
      rw [shape, isKept, List.flatMap_singleton]
  · refine ⟨[code], List.forall_mem_singleton.mpr noHalf, ?_⟩
    have itself := quotedChar_of_not_ascii (Nat.le_of_not_lt ascii)
    rw [List.flatMap_singleton, shape]
    split
    · have mark : quotedChar selfMark = [selfMark] :=
        quotedChar_of_not_ascii (by decide)
      rw [List.flatMap_cons, mark, List.flatMap_singleton, itself, List.singleton_append]
    · rw [List.flatMap_singleton, itself]

namespace IsWholeText

theorem append
    {first second : String}
    (isWhole : IsWholeText first)
    (isWholeToo : IsWholeText second) :
    IsWholeText (first ++ second) where
  isText := isWhole.isText.append isWholeToo.isText
  isWhole := by
    rw [isWhole_append isWhole.isText, isWhole.isWhole, isWholeToo.isWhole]
    rfl

theorem intercalate
    {between : String}
    (isBetween : IsWholeText between)
    {texts : List String}
    (areWhole : ∀ text ∈ texts, IsWholeText text) :
    IsWholeText (between.intercalate texts) := by
  induction texts with
  | nil =>
      exact isWholeText_of_ascii rfl
  | cons text rest inductionHypothesis =>
      rw [List.forall_mem_cons] at areWhole
      by_cases isLast : rest = []
      · rw [isLast, String.intercalate_singleton]
        exact areWhole.1
      · rw [String.intercalate_cons_of_ne_nil isLast]
        exact (areWhole.1.append isBetween).append (inductionHypothesis areWhole.2)

theorem quoted
    {string : String}
    (isWhole : IsWholeText string) :
    IsWholeText (quoted string) := by
  obtain ⟨codes, noHalf, rfl⟩ := isWholeText_iff.mp isWhole
  have escaped : ∀ codes : List Nat, (∀ code ∈ codes, isHalf code = false) →
      ∃ others : List Nat, (∀ code ∈ others, isHalf code = false) ∧
        (codes.flatMap kept).flatMap quotedChar = others.flatMap kept := by
    intro codes noHalf
    induction codes with
    | nil =>
        exact ⟨[], noHalf, rfl⟩
    | cons code codes inductionHypothesis =>
        rw [List.forall_mem_cons] at noHalf
        obtain ⟨others, noHalfToo, isKept⟩ := inductionHypothesis noHalf.2
        obtain ⟨first, noHalfFirst, isFirst⟩ := quotedChar_kept noHalf.1
        refine ⟨first ++ others, List.forall_mem_append.mpr ⟨noHalfFirst, noHalfToo⟩, ?_⟩
        rw [List.flatMap_cons, List.flatMap_append, List.flatMap_append, isFirst, isKept]
  obtain ⟨others, noHalfToo, isKept⟩ := escaped codes noHalf
  have inner : IsWholeText (ofCodePoints others) :=
    isWholeText_iff.mpr ⟨others, noHalfToo, rfl⟩
  have shape :
      Text.quoted (ofCodePoints codes) = "\"" ++ ofCodePoints others ++ "\"" := by
    rw [Text.quoted, ofCodePoints, ofCodePoints, String.toList_ofList, isKept]
    simp [← String.toList_inj]
  rw [shape]
  have isMark : IsWholeText "\"" :=
    isWholeText_of_ascii (by decide)
  exact (isMark.append inner).append isMark

end IsWholeText

theorem isWholeText_digest
    (text : String) :
    IsWholeText (textDigest text) := by
  refine isWholeText_of_forall_ascii fun char member => ?_
  rw [textDigest, digest, String.toList_ofList] at member
  obtain ⟨word, -, isDigit⟩ := List.mem_flatMap.mp member
  exact hexDigits_ascii 8 word.toNat char isDigit

theorem isWholeText_toString
    (number : Nat) :
    IsWholeText (toString (number : Int)) := by
  refine isWholeText_of_forall_ascii fun char member => ?_
  have isNumeral : toString (number : Int) = String.ofList (Nat.toDigits 10 number) :=
    rfl
  rw [isNumeral, String.toList_ofList] at member
  have isDigit := Nat.isDigit_of_mem_toDigits (by decide) (by decide) member
  rw [Char.isDigit_iff_toNat] at isDigit
  exact Nat.lt_of_le_of_lt isDigit.2 (by decide)

end Text

namespace Json

open Data Text

/-- Whether a value is written as a text of characters, wherever it stands. -/
def IsWritable (value : Value) : Prop :=
  ∀ step indent, IsWholeText (write (.indented step indent) value)

theorem isWholeText_lead
    (step indent : Nat) :
    IsWholeText (Layout.lead (.indented step indent)) :=
  isWholeText_of_forall_ascii fun char member => by
    rw [Layout.lead, String.toList_append, List.mem_append] at member
    rcases member with isFeed | isBlank
    · rw [List.mem_singleton.mp isFeed]
      decide
    · rw [String.toList_ofList] at isBlank
      rw [List.eq_of_mem_replicate isBlank]
      decide

theorem isWholeText_enclose
    {left right : String}
    (isLeft : IsWholeText left)
    (isRight : IsWholeText right)
    (step indent : Nat)
    {parts : List String}
    (areWhole : ∀ part ∈ parts, IsWholeText part) :
    IsWholeText (enclose (.indented step indent) left right parts) := by
  have between : IsWholeText (Layout.between (.indented step (indent + step))) :=
    (isWholeText_of_ascii (by decide)).append (isWholeText_lead step (indent + step))
  unfold enclose
  split
  · exact isLeft.append isRight
  · exact (((isLeft.append (isWholeText_lead step (indent + step))).append
      (between.intercalate areWhole)).append (isWholeText_lead step indent)).append isRight

theorem isWritable_list
    {items : List Value}
    (areWritable : ∀ item ∈ items, IsWritable item) :
    IsWritable (.list items) := by
  intro step indent
  have parts : ∀ part ∈ writeItems (.indented step (indent + step)) items, IsWholeText part := by
    induction items with
    | nil =>
        exact List.forall_mem_nil _
    | cons item rest inductionHypothesis =>
        rw [List.forall_mem_cons] at areWritable
        rw [writeItems, List.forall_mem_cons]
        exact ⟨areWritable.1 step (indent + step), inductionHypothesis areWritable.2⟩
  rw [write]
  exact isWholeText_enclose (isWholeText_of_ascii (by decide)) (isWholeText_of_ascii (by decide))
    step indent parts

theorem isWritable_object
    {entries : List (String × Value)}
    (areWritable : ∀ entry ∈ entries, IsWholeText entry.1 ∧ IsWritable entry.2) :
    IsWritable (.object entries) := by
  intro step indent
  have parts : ∀ part ∈ writeEntries (.indented step (indent + step))
      (entries.map fun entry => (.text entry.1, entry.2)), IsWholeText part := by
    induction entries with
    | nil =>
        exact List.forall_mem_nil _
    | cons entry rest inductionHypothesis =>
        rw [List.forall_mem_cons] at areWritable
        rw [List.map_cons, writeEntries, List.forall_mem_cons]
        exact ⟨(areWritable.1.1.quoted.append (isWholeText_of_ascii (by decide))).append
          (areWritable.1.2 step (indent + step)), inductionHypothesis areWritable.2⟩
  rw [Value.object, write]
  exact isWholeText_enclose (isWholeText_of_ascii (by decide)) (isWholeText_of_ascii (by decide))
    step indent parts

theorem isWritable_text
    {text : String}
    (isWhole : IsWholeText text) :
    IsWritable (.text text) := by
  intro step indent
  rw [Value.text, write]
  exact isWhole.quoted

theorem isWritable_int
    (number : Nat) :
    IsWritable (.int number) := by
  intro step indent
  rw [Value.int, write]
  exact isWholeText_toString number

end Json

namespace Export.Manifest

open Data Json Text

/-- A manifest can be written if its time, its directory and the paths of its records can. -/
theorem isWhole_content
    {manifest : Manifest}
    (time : IsWholeText manifest.time)
    (directory : IsWholeText manifest.directory)
    (records : ∀ record ∈ manifest.records,
      IsWholeText record.path ∧ IsWholeText record.digest) :
    Text.isWhole manifest.file.content = true := by
  have key {name : String} (ascii : isAscii name = true) :
      IsWholeText name :=
    isWholeText_of_ascii ascii
  have entries : IsWritable (.list (manifest.records.map Record.value)) :=
    isWritable_list fun item member => by
      obtain ⟨record, isRecord, rfl⟩ := List.mem_map.mp member
      obtain ⟨path, digest⟩ := records record isRecord
      apply isWritable_object
      simp only [List.forall_mem_cons]
      exact ⟨⟨key (by decide), isWritable_text path⟩, ⟨key (by decide), isWritable_int _⟩,
        ⟨key (by decide), isWritable_int _⟩, ⟨key (by decide), isWritable_text digest⟩,
        List.forall_mem_nil _⟩
  have whole : IsWritable manifest.value := by
    apply isWritable_object
    simp only [List.forall_mem_cons]
    exact ⟨⟨key (by decide), isWritable_text (key (by decide))⟩,
      ⟨key (by decide), isWritable_text time⟩, ⟨key (by decide), isWritable_text directory⟩,
      ⟨key (by decide), isWritable_int _⟩, ⟨key (by decide), isWritable_int _⟩,
      ⟨key (by decide), isWritable_int _⟩, ⟨key (by decide), entries⟩,
      List.forall_mem_nil _⟩
  exact (whole 2 0).isWhole

theorem isText_fileName : IsText fileName :=
  (isWholeText_of_ascii (by decide)).isText

/-- The time of a manifest stands between two texts that do not depend on it. -/
theorem exists_content_eq
    (directory : String)
    (records : List Record) :
    ∃ front behind, IsText front ∧ ∀ time,
      (Manifest.file ⟨time, directory, records⟩).content = front ++ (quoted time ++ behind) := by
  -- The parts in front of the time and behind it, which say how each entry is written.
  let layout : Layout := .indented 2 2
  let first := quoted "generator_version" ++ ": " ++ quoted version
  let rest := writeEntries layout
    [(.text "output_directory", .text directory),
      (.text "total_files", .int (Manifest.fileTotal ⟨"", directory, records⟩)),
      (.text "total_bytes", .int (Manifest.byteTotal ⟨"", directory, records⟩)),
      (.text "total_lines", .int (Manifest.lineTotal ⟨"", directory, records⟩)),
      (.text "files", .list (records.map Record.value))]
  have shape (time : String) :
      (Manifest.file ⟨time, directory, records⟩).content =
        enclose (.indented 2 0) "\x7b" "\x7d"
          (first :: (quoted "export_timestamp" ++ ": " ++ quoted time) :: rest) := by
    rw [file, pretty, value, Value.object, write, List.map_cons, List.map_cons, writeEntries,
      writeEntries]
    rfl
  have notEmpty : rest ≠ [] :=
    List.cons_ne_nil _ _
  have ascii {text : String} (ascii : isAscii text = true) :
      IsWholeText text :=
    isWholeText_of_ascii ascii
  refine ⟨"\x7b" ++ layout.lead ++ first ++ layout.between ++ quoted "export_timestamp" ++ ": ",
    layout.between ++ layout.between.intercalate rest ++ Layout.lead (.indented 2 0) ++ "\x7d",
    ?_, fun time => ?_⟩
  · exact (ascii (by decide)).isText
  · rw [shape, enclose, if_neg (by simp), String.intercalate_cons_cons,
      String.intercalate_cons_of_ne_nil notEmpty]
    simp only [String.append_assoc]
    rfl

/-- Whether a manifest can be written does not depend on its time. -/
theorem isWhole_content_eq
    {time other : String}
    (isTime : IsWholeText time)
    (isOther : IsWholeText other)
    (directory : String)
    (records : List Record) :
    Text.isWhole (Manifest.file ⟨other, directory, records⟩).content =
      Text.isWhole (Manifest.file ⟨time, directory, records⟩).content := by
  obtain ⟨front, behind, isText, shape⟩ := exists_content_eq directory records
  rw [shape, shape, isWhole_append isText, isWhole_append isText,
    isWhole_append isTime.quoted.isText, isWhole_append isOther.quoted.isText,
    isTime.quoted.isWhole, isOther.quoted.isWhole]

end Export.Manifest

end ZodSchemas
