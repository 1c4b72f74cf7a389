import ZodSchemas.Check.Metadata
import ZodSchemas.Expr.Render
import ZodSchemas.Proofs.QuotedStrings
import ZodSchemas.Proofs.UnitNames
import ZodSchemas.Proofs.WholeTexts

namespace ZodSchemas

/-!
# Names and the keys that denote them

A name that is an identifier stands bare as an object key and is accepted as the
name of a model; any other name is quoted.  The test for an identifier lets a
line feed follow, and a bare key with a line feed behind it denotes the name
without it.  For every other name the test is right, and the key denotes the name.
-/

namespace Text

section Identifiers

/-- A name of letters, numerals, underscores and dollar signs with no numeral at its front. -/
structure IsProperName (name : String) : Prop where
  notEmpty : name ≠ ""
  characters : ∀ char ∈ name.toList, char.isAlphanum = true ∨ char = '_' ∨ char = '$'
  front : ∀ first ∈ name.toList.head?, first.isDigit = false

/-- A proper name with a line feed behind it. -/
def HasLineFeedBehind (name : String) : Prop :=
  ∃ front, IsProperName front ∧ name = front ++ "\n"

theorem isIdentifierStart_iff
    {char : Char} :
    isIdentifierStart char = true ↔ char.isAlpha = true ∨ char = '_' ∨ char = '$' := by
  have upper : ('A' ≤ char && char ≤ 'Z') = char.isUpper := (Bool.decide_and ..).symm
  have lower : ('a' ≤ char && char ≤ 'z') = char.isLower := rfl
  have alpha : (char.isUpper || char.isLower) = char.isAlpha := rfl
  rw [isIdentifierStart, upper, lower, alpha, Bool.or_eq_true, Bool.or_eq_true, beq_iff_eq,
    beq_iff_eq, or_assoc]

theorem isIdentifierPart_iff
    {char : Char} :
    isIdentifierPart char = true ↔ char.isAlphanum = true ∨ char = '_' ∨ char = '$' := by
  have digit : ('0' ≤ char && char ≤ '9') = char.isDigit := rfl
  rw [isIdentifierPart, digit, Bool.or_eq_true, isIdentifierStart_iff, Char.isAlphanum,
    Bool.or_eq_true]
  tauto

theorem isDigit_eq_false_of_start
    {char : Char}
    (starts : isIdentifierStart char = true) :
    char.isDigit = false := by
  simp only [isIdentifierStart, Bool.or_eq_true, Bool.and_eq_true, decide_eq_true_eq, beq_iff_eq,
    Char.le_def, UInt32.le_iff_toNat_le] at starts
  simp only [Char.isDigit, Bool.and_eq_false_iff, decide_eq_false_iff_not,
    UInt32.le_iff_toNat_le, ge_iff_le]
  rcases starts with ((upper | lower) | rfl) | rfl
  · exact .inr (Nat.not_le.mpr (Nat.lt_of_lt_of_le (by decide) upper.1))
  · exact .inr (Nat.not_le.mpr (Nat.lt_of_lt_of_le (by decide) lower.1))
  · exact .inr (by decide)
  · exact .inl (by decide)

theorem isStrictIdentifier_iff
    {name : String} :
    isStrictIdentifier name.toList = true ↔ IsProperName name := by
  constructor
  · intro spelled
    obtain ⟨first, rest, shape, starts, continues⟩ := exists_start_of_isStrictIdentifier spelled
    refine ⟨?_, ?_, ?_⟩
    · rintro rfl
      contradiction
    · rw [shape, List.forall_mem_cons]
      refine ⟨isIdentifierPart_iff.mp ?_, fun char member =>
        isIdentifierPart_iff.mp (continues char member)⟩
      rw [isIdentifierPart, starts, Bool.true_or]
    · rw [shape]
      rintro _ ⟨⟩
      exact isDigit_eq_false_of_start starts
  · rintro ⟨notEmpty, characters, front⟩
    cases shape : name.toList with
    | nil =>
        exact absurd (String.toList_eq_nil_iff.mp shape) notEmpty
    | cons first rest =>
        rw [shape, List.forall_mem_cons] at characters
        have noDigit : first.isDigit = false := front first (by rw [shape]; rfl)
        rw [isStrictIdentifier, Bool.and_eq_true, List.all_eq_true, isIdentifierStart_iff]
        refine ⟨?_, fun char member => isIdentifierPart_iff.mpr (characters.2 char member)⟩
        simpa [Char.isAlphanum, noDigit] using characters.1

/-- The test for an identifier accepts proper names, and those with a line feed behind them. -/
theorem isIdentifier_iff
    {name : String} :
    isIdentifier name = true ↔ IsProperName name ∨ HasLineFeedBehind name := by
  rw [isIdentifier, isIdentifierText, Bool.or_eq_true, isStrictIdentifier_iff, Bool.and_eq_true,
    beq_iff_eq]
  refine or_congr_right ⟨?_, ?_⟩
  · rintro ⟨lineFeed, spelled⟩
    refine ⟨String.ofList name.toList.dropLast, ?_, ?_⟩
    · rwa [← isStrictIdentifier_iff, String.toList_ofList]
    · rw [← String.toList_inj, String.toList_append, String.toList_ofList]
      exact (List.dropLast_append_getLast? _ lineFeed).symm
  · rintro ⟨front, isProper, rfl⟩
    have shape : (front ++ "\n").toList = front.toList ++ ['\n'] := by
      rw [String.toList_append]
      rfl
    rw [shape, List.getLast?_concat, List.dropLast_concat, isStrictIdentifier_iff]
    exact ⟨rfl, isProper⟩

theorem not_isProperName_of_lineFeed
    {name : String}
    (lineFeed : HasLineFeedBehind name) :
    ¬ IsProperName name := by
  obtain ⟨front, -, rfl⟩ := lineFeed
  intro isProper
  have isLast : '\n' ∈ (front ++ "\n").toList := by
    rw [String.toList_append]
    exact List.mem_append_right _ List.mem_cons_self
  rcases isProper.characters _ isLast with part | isUnderscore | isDollar
  · exact absurd part (by decide)
  · exact absurd isUnderscore (by decide)
  · exact absurd isDollar (by decide)

end Identifiers

section Literals

/-- How a code point may be spelled in a string literal of JSON: by itself, by a letter behind a
backslash, or by four hexadecimal numerals. -/
inductive SpellsCode : List Nat → Nat → Prop where
  | itself
      {code : Nat}
      (noControl : 0x20 ≤ code)
      (noMark : code ≠ 0x22)
      (noEscape : code ≠ 0x5C) :
      SpellsCode [code] code
  | letter
      {letter char : Char}
      (stands : Json.escaped? letter = some char) :
      SpellsCode [0x5C, letter.toNat] char.toNat
  | numerals
      {digits : List Char}
      {code : Nat}
      (four : digits.length = 4)
      (spelled : Json.hexNumber? digits = some code)
      (single : isHalf code = false) :
      SpellsCode (0x5C :: 0x75 :: digits.map Char.toNat) code

/-- A text is one string literal of JSON, with marks at its ends, that is decoded to a string. -/
def IsLiteralOf (literal string : String) : Prop :=
  ∃ spellings,
    List.Forall₂ SpellsCode spellings (codePoints string) ∧
      codePoints literal = 0x22 :: spellings.flatten ++ [0x22]

/-- Characters of ASCII are read as their code points. -/
theorem codesBehind_append_of_ascii
    {chars : List Char}
    (ascii : ∀ char ∈ chars, char.toNat < 0x80)
    (rest : List Char) :
    codesBehind [] (chars ++ rest) = chars.map Char.toNat ++ codesBehind [] rest := by
  induction chars with
  | nil =>
      rfl
  | cons char chars inductionHypothesis =>
      rw [List.forall_mem_cons] at ascii
      have single : char :: chars ++ rest = kept char.toNat ++ (chars ++ rest) := by
        rw [kept_toNat ascii.1]
        rfl
      rw [single, codesBehind_kept_toNat, inductionHypothesis ascii.2]
      rfl

theorem spellsCode_quotedChar
    (char : Char) :
    SpellsCode ((quotedChar char).map Char.toNat) char.toNat := by
  unfold quotedChar
  iterate 7
    split
    · rename_i same
      subst same
      exact .letter rfl
  split
  · rename_i isControl
    exact .numerals rfl (Json.hexNumber?_hexDigits char.toNat isControl) (isHalf_toNat char)
  · rename_i noMark noEscape _ _ _ _ _ noControl
    exact .itself (Nat.le_of_not_lt noControl) (fun same => noMark (Char.toNat_inj.mp same))
      fun same => noEscape (Char.toNat_inj.mp same)

/-- Characters beyond ASCII are quoted as themselves. -/
theorem flatMap_quotedChar_of_not_ascii
    {chars : List Char}
    (beyond : ∀ char ∈ chars, 0x80 ≤ char.toNat) :
    chars.flatMap quotedChar = chars := by
  induction chars with
  | nil =>
      rfl
  | cons char chars inductionHypothesis =>
      rw [List.forall_mem_cons] at beyond
      rw [List.flatMap_cons, quotedChar_of_not_ascii beyond.1, inductionHypothesis beyond.2,
        List.singleton_append]

theorem spellsCode_of_not_ascii
    {code : Nat}
    (beyond : 0x80 ≤ code) :
    SpellsCode [code] code :=
  .itself (by omega) (by omega) (by omega)

theorem kept_eq_kept_toNat
    {code : Nat}
    (noHalf : isHalf code = false) :
    kept code = kept (Char.ofNat code).toNat := by
  simp [kept, noHalf, isHalf_toNat]

theorem not_ascii_of_mem_kept
    {char other : Char}
    (beyond : 0x80 ≤ char.toNat)
    (member : other ∈ kept char.toNat) :
    0x80 ≤ other.toNat := by
  rw [kept, if_neg (by simp [isHalf_toNat]), Char.ofNat_toNat] at member
  split at member
  · rcases List.mem_cons.mp member with rfl | isChar
    · decide
    · rwa [List.mem_singleton.mp isChar]
  · rwa [List.mem_singleton.mp member]

/-- The characters that a code point is kept as are quoted as a spelling of that code point. -/
theorem exists_spelling
    (code : Nat) :
    ∃ spelling other,
      SpellsCode spelling other ∧
        (∀ rest, codesBehind [] (kept code ++ rest) = other :: codesBehind [] rest) ∧
          ∀ rest, codesBehind [] ((kept code).flatMap quotedChar ++ rest) =
            spelling ++ codesBehind [] rest := by
  cases half : isHalf code with
  | true =>
      -- A half is kept as its stand-in, which lies beyond ASCII like the half itself.
      have isKept : kept code = [Char.ofNat (code + standInOffset)] := if_pos half
      have isStandIn := toNat_standIn half
      have isRead (rest : List Char) :
          codesBehind [] (kept code ++ rest) = code :: codesBehind [] rest := by
        rw [isKept, List.singleton_append,
          codesBehind_cons_of_ne_selfMark (standIn_ne_selfMark half), codeOf, isStandIn,
          Nat.add_sub_cancel, if_pos half]
      have beyond : 0x80 ≤ code := by
        simp only [isHalf, isHighHalf, isLowHalf, Bool.or_eq_true, Bool.and_eq_true,
          decide_eq_true_eq] at half
        omega
      have stays : (kept code).flatMap quotedChar = kept code := by
        refine flatMap_quotedChar_of_not_ascii ?_
        rw [isKept, List.forall_mem_singleton, isStandIn]
        omega
      refine ⟨[code], code, spellsCode_of_not_ascii beyond, isRead, fun rest => ?_⟩
      rw [stays, isRead, List.singleton_append]
  | false =>
      rw [kept_eq_kept_toNat half]
      generalize Char.ofNat code = char
      refine ⟨(quotedChar char).map Char.toNat, char.toNat, spellsCode_quotedChar char,
        codesBehind_kept_toNat char, fun rest => ?_⟩
      by_cases ascii : char.toNat < 0x80
      · rw [kept_toNat ascii, List.flatMap_singleton]
        exact codesBehind_append_of_ascii (quotedChar_ascii ascii) rest
      · have beyond := Nat.le_of_not_lt ascii
        rw [flatMap_quotedChar_of_not_ascii fun other => not_ascii_of_mem_kept beyond,
          codesBehind_kept_toNat, quotedChar_of_not_ascii beyond]
        rfl

/-- What is written in double quotes is a literal of the text that is quoted. -/
theorem isLiteralOf_quoted
    {string : String}
    (isText : IsText string) :
    IsLiteralOf (quoted string) string := by
  obtain ⟨codes, rfl⟩ := isText
  have escaped (rest : List Char) :
      ∃ spellings,
        List.Forall₂ SpellsCode spellings (codesBehind [] (codes.flatMap kept)) ∧
          codesBehind [] ((codes.flatMap kept).flatMap quotedChar ++ rest) =
            spellings.flatten ++ codesBehind [] rest := by
    induction codes with
    | nil =>
        exact ⟨[], .nil, rfl⟩
    | cons code codes inductionHypothesis =>
        obtain ⟨spellings, areSpelled, isQuoted⟩ := inductionHypothesis
        obtain ⟨spelling, other, isSpelled, isRead, isFirst⟩ := exists_spelling code
        refine ⟨spelling :: spellings, ?_, ?_⟩
        · rw [List.flatMap_cons, isRead]
          exact .cons isSpelled areSpelled
        · rw [List.flatMap_cons, List.flatMap_append, List.append_assoc, isFirst, isQuoted,
            List.flatten_cons, List.append_assoc]
  obtain ⟨spellings, areSpelled, isQuoted⟩ := escaped ['\x22']
  refine ⟨spellings, ?_, ?_⟩
  · rwa [codePoints, ofCodePoints, String.toList_ofList]
  · have marked (rest : List Char) :
        codesBehind [] ('\x22' :: rest) = 0x22 :: codesBehind [] rest :=
      codesBehind_append_of_ascii (List.forall_mem_singleton.mpr (by decide)) rest
    rw [codePoints, quoted, ofCodePoints, String.toList_ofList, String.toList_ofList,
      List.cons_append, marked, isQuoted, marked, List.cons_append]
    rfl

end Literals

section Keys

/-- What the text of an object key denotes: a bare key its characters, without blanks behind them,
and a string literal the string that it is decoded to. -/
inductive Denotes : String → String → Prop where
  | bare
      {name : String}
      (isProper : IsProperName name)
      {blanks : List Char}
      (areBlank : ∀ char ∈ blanks, char.isWhitespace = true) :
      Denotes (name ++ String.ofList blanks) name
  | literal
      {key name : String}
      (isLiteral : IsLiteralOf key name) :
      Denotes key name

theorem quotedChar_ne_nil
    (char : Char) :
    quotedChar char ≠ [] := by
  unfold quotedChar
  iterate 8
    split
    · exact List.cons_ne_nil _ _
  exact List.cons_ne_nil _ _

theorem length_le_length_flatMap_quotedChar
    (chars : List Char) :
    chars.length ≤ (chars.flatMap quotedChar).length := by
  induction chars with
  | nil =>
      exact Nat.le_refl 0
  | cons char chars inductionHypothesis =>
      have first := List.length_pos_iff.mpr (quotedChar_ne_nil char)
      rw [List.flatMap_cons, List.length_append, List.length_cons]
      omega

/-- A quoted name is longer than the name, by its marks at least. -/
theorem quoted_ne_self
    (name : String) :
    quoted name ≠ name := by
  intro isSelf
  have sameLength := congrArg (fun text : String => text.toList.length) isSelf
  have noShorter := length_le_length_flatMap_quotedChar name.toList
  simp only [quoted, String.toList_ofList, List.cons_append, List.length_cons,
    List.length_append] at sameLength
  omega

theorem objectKey_eq_self_iff
    {name : String} :
    objectKey name = name ↔ IsProperName name ∨ HasLineFeedBehind name := by
  rw [← isIdentifier_iff, objectKey]
  split
  · rename_i valid
    exact ⟨fun _ => valid, fun _ => rfl⟩
  · rename_i invalid
    exact ⟨fun isSelf => absurd isSelf (quoted_ne_self name), fun valid => absurd valid invalid⟩

/-- A key that differs from its name is the name in double quotes. -/
theorem isLiteralOf_objectKey
    {name : String}
    (isText : IsText name)
    (differs : objectKey name ≠ name) :
    IsLiteralOf (objectKey name) name := by
  have isQuoted : objectKey name = quoted name := by
    unfold objectKey at differs ⊢
    split at differs
    · contradiction
    · rename_i invalid
      rw [if_neg invalid]
  rw [isQuoted]
  exact isLiteralOf_quoted isText

theorem eq_mark_of_codeOf
    {char : Char}
    (isMark : codeOf char = 0x22) :
    char = '\x22' := by
  unfold codeOf at isMark
  split at isMark
  · rename_i half
    rw [isMark] at half
    exact absurd half (by decide)
  · exact Char.toNat_inj.mp isMark

/-- What stands bare begins no string literal. -/
theorem not_isLiteralOf_of_isIdentifier
    {key name : String}
    (valid : isIdentifier key = true) :
    ¬ IsLiteralOf key name := by
  rintro ⟨spellings, -, areCodes⟩
  obtain ⟨first, rest, shape, starts, -⟩ := exists_start_of_isIdentifier valid
  have noMark : first ≠ selfMark := by
    rintro rfl
    exact absurd starts (by decide)
  rw [codePoints, shape, codesBehind_cons_of_ne_selfMark noMark] at areCodes
  rw [eq_mark_of_codeOf (List.cons.inj areCodes).1] at starts
  exact absurd starts (by decide)

theorem Denotes.isProperName_or_isLiteralOf
    {key name : String}
    (denotes : Denotes key name) :
    IsProperName name ∨ IsLiteralOf key name := by
  cases denotes with
  | bare isProper =>
      exact .inl isProper
  | literal isLiteral =>
      exact .inr isLiteral

/-- A bare key with a line feed behind it denotes the name in front of the line feed. -/
theorem denotes_front
    {front : String}
    (isProper : IsProperName front) :
    Denotes (objectKey (front ++ "\n")) front := by
  rw [objectKey_eq_self_iff.mpr (.inr ⟨front, isProper, rfl⟩)]
  exact .bare isProper (List.forall_mem_singleton.mpr rfl)

theorem denotes_objectKey_iff
    {name : String}
    (isText : IsText name) :
    Denotes (objectKey name) name ↔ ¬ HasLineFeedBehind name := by
  by_cases isSelf : objectKey name = name
  · rcases objectKey_eq_self_iff.mp isSelf with isProper | lineFeed
    · refine ⟨fun _ lineFeed => not_isProperName_of_lineFeed lineFeed isProper, fun _ => ?_⟩
      have noBlanks : ∀ char ∈ ([] : List Char), char.isWhitespace = true :=
        List.forall_mem_nil _
      rw [isSelf]
      simpa using Denotes.bare isProper noBlanks
    · refine ⟨fun denotes => ?_, fun noLineFeed => absurd lineFeed noLineFeed⟩
      have valid := isIdentifier_iff.mpr (.inr lineFeed)
      rw [isSelf] at denotes
      rcases denotes.isProperName_or_isLiteralOf with isProper | isLiteral
      · exact absurd isProper (not_isProperName_of_lineFeed lineFeed)
      · exact absurd isLiteral (not_isLiteralOf_of_isIdentifier valid)
  · refine ⟨fun _ lineFeed => isSelf (objectKey_eq_self_iff.mpr (.inr lineFeed)), fun _ => ?_⟩
    exact .literal (isLiteralOf_objectKey isText isSelf)

end Keys

end Text

open Text

section ModelNames

open Metadata
open Check

/-- A finding that the name of a model is no valid identifier. -/
def Check.Finding.IsNameFault (name : String) (finding : Finding) : Prop :=
  finding.code = "MODEL_NAME_INVALID" ∧ finding.details = [(.text "model", .text name)]

/-- The name of a model is found fault with exactly if it is not accepted as an identifier. -/
theorem exists_isNameFault_iff
    {document : Document}
    {model : Model}
    (member : model ∈ document.models) :
    (∃ finding ∈ naming document, finding.IsNameFault model.name) ↔
      isIdentifier model.name = false := by
  constructor
  · rintro ⟨finding, isFound, isFault, about⟩
    obtain ⟨other, -, inOther⟩ := List.mem_flatMap.mp isFound
    rcases List.mem_append.mp inOther with isNaming | isRepetition
    · split at isNaming
      · contradiction
      · rename_i invalid
        obtain rfl := List.mem_singleton.mp isNaming
        have sameName : other.name = model.name := by
          simpa [Finding.error, Finding.make, Data.Value.text] using about
        rw [← sameName]
        simpa using invalid
    · obtain ⟨field, -, rfl⟩ := List.mem_map.mp isRepetition
      exact absurd isFault (by simp [Finding.error, Finding.make])
  · intro invalid
    obtain ⟨finding, isFound, isFault⟩ :
        ∃ finding ∈ modelNaming model, finding.IsNameFault model.name := by
      rw [modelNaming, if_neg (by simp [invalid])]
      exact ⟨_, List.mem_append_left _ List.mem_cons_self, rfl, rfl⟩
    exact ⟨finding, List.mem_flatMap.mpr ⟨model, member, isFound⟩, isFault⟩

/-- What is asked of a name: only a proper name stands bare as a key or is accepted as the name of a
model, and a name in double quotes is a literal of it. -/
structure IsFaithful (name : String) : Prop where
  bare : objectKey name = name → IsProperName name
  accepted :
    ∀ document : Document, ∀ model ∈ document.models, model.name = name →
      (∀ finding ∈ naming document, ¬ finding.IsNameFault name) → IsProperName name
  quoted : objectKey name ≠ name → IsLiteralOf (objectKey name) name

/-- A name with a line feed behind it stands bare although it is not proper. -/
theorem not_isFaithful_lineFeed :
    ¬ IsFaithful "id\n" := by
  intro faithful
  have isProper := faithful.bare (by decide)
  exact absurd (isProper.characters '\n' (by decide)) (by decide)

theorem isFaithful_iff
    {name : String}
    (isText : IsText name) :
    IsFaithful name ↔ ¬ HasLineFeedBehind name := by
  constructor
  · intro faithful lineFeed
    have isProper := faithful.bare (objectKey_eq_self_iff.mpr (.inr lineFeed))
    exact not_isProperName_of_lineFeed lineFeed isProper
  · intro noLineFeed
    refine ⟨fun isSelf => ?_, ?_, isLiteralOf_objectKey isText⟩
    · exact (objectKey_eq_self_iff.mp isSelf).resolve_right noLineFeed
    · rintro document model member rfl noFault
      have valid : isIdentifier model.name = true := by
        by_contra invalid
        obtain ⟨finding, isFound, isFault⟩ :=
          (exists_isNameFault_iff member).mpr (Bool.eq_false_iff.mpr invalid)
        exact noFault finding isFound isFault
      exact (isIdentifier_iff.mp valid).resolve_right noLineFeed

end ModelNames

section Objects

open ZodSchemas.Expr

/-- The line of a field with a key in front of its value. -/
def keyLine (level : Int) (key value : String) : String :=
  indentation (level + 1) ++ key ++ ": " ++ value ++ ","

/-- An object is rendered with the keys in front of the values of its fields. -/
def WritesKeys (level : Int) (fields : List (String × Expr)) (strict : Bool)
    (keys : List String) : Prop :=
  render level (.object fields strict) =
    (renderAll (level + 1) (fields.map (·.2))).map fun values =>
      objectText strict level (List.zipWith (keyLine level) keys values)

theorem renderFields_eq
    (level : Int)
    (fields : List (String × Expr)) :
    renderFields level fields =
      (renderAll (level + 1) (fields.map (·.2))).map fun values =>
        List.zipWith (keyLine level) (fields.map fun field => objectKey field.1) values := by
  induction fields with
  | nil =>
      rfl
  | cons field rest inductionHypothesis =>
      obtain ⟨name, value⟩ := field
      rw [renderFields, inductionHypothesis, List.map_cons, List.map_cons, renderAll]
      cases render (level + 1) value with
      | error fault =>
          rfl
      | ok text =>
          cases renderAll (level + 1) (rest.map (·.2)) <;> rfl

theorem writesKeys_objectKeys
    (level : Int)
    (fields : List (String × Expr))
    (strict : Bool) :
    WritesKeys level fields strict (fields.map fun field => objectKey field.1) := by
  rw [WritesKeys, render, renderFields_eq]
  cases renderAll (level + 1) (fields.map (·.2)) <;> rfl

/-- A name is treated as is asked of it, and the keys that an object is rendered with denote the
names of its fields, exactly if no line feed stands behind a proper name. -/
theorem isFaithful_iff_and_keys_denote_iff
    {name : String}
    (isText : IsText name)
    (level : Int)
    {fields : List (String × Expr)}
    (areTexts : ∀ field ∈ fields, IsText field.1)
    (strict : Bool) :
    (IsFaithful name ↔ ¬ HasLineFeedBehind name) ∧
      ∃ keys, WritesKeys level fields strict keys ∧
        (List.Forall₂ Denotes keys (fields.map (·.1)) ↔
          ∀ field ∈ fields, ¬ HasLineFeedBehind field.1) := by
  refine ⟨isFaithful_iff isText, _, writesKeys_objectKeys level fields strict, ?_⟩
  rw [List.forall₂_map_left_iff, List.forall₂_map_right_iff, List.forall₂_same]
  exact forall₂_congr fun field member => denotes_objectKey_iff (areTexts field member)

theorem isFaithful_iff_and_keys_denote_iff_lineFeed :
    IsText "id\n" ∧
      (∀ field ∈ [("a b", Expr.json), ("id\n", .primitive "z.number()")], IsText field.1) ∧
        (IsFaithful "id\n" ↔ ¬ HasLineFeedBehind "id\n") ∧
          ∃ keys,
            WritesKeys 0 [("a b", .json), ("id\n", .primitive "z.number()")] false keys ∧
              (List.Forall₂ Denotes keys ["a b", "id\n"] ↔
                ∀ field ∈ [("a b", Expr.json), ("id\n", .primitive "z.number()")],
                  ¬ HasLineFeedBehind field.1) := by
  have isText : IsText "id\n" := ⟨[105, 100, 10], by decide⟩
  have areTexts :
      ∀ field ∈ [("a b", Expr.json), ("id\n", .primitive "z.number()")], IsText field.1 := by
    rw [List.forall_mem_cons, List.forall_mem_singleton]
    exact ⟨⟨[97, 32, 98], by decide⟩, isText⟩
  exact ⟨isText, areTexts, isFaithful_iff_and_keys_denote_iff isText 0 areTexts false⟩

end Objects

end ZodSchemas
