import ZodSchemas.Json.Reader
import ZodSchemas.Proofs.CodePoints

namespace ZodSchemas

/-!
# Strings in double quotes

What is written in double quotes is a string of a JSON document: the reader of
documents takes each character back from what it is written as, and stops behind
the closing mark.  So different texts are never quoted alike, whatever follows
them.
-/

namespace Json

open Text

theorem hexNumber?_hexDigits :
    ∀ value < 0x20, hexNumber? (hexDigits 4 value) = some value := by
  decide

/-- An escape of four numerals with something behind it is read as the code point it was written
for. -/
theorem readUnicodeEscape_hexDigits
    {value : Nat}
    (isControl : value < 0x20)
    (position : Nat)
    {rest : List Char}
    (more : rest ≠ []) :
    readUnicodeEscape position (hexDigits 4 value ++ rest) = .ok (value, 4) := by
  have width : (hexDigits 4 value).length = 4 := rfl
  have isUnit : readUnit position (hexDigits 4 value ++ rest) = .ok value := by
    have long : ¬ (hexDigits 4 value ++ rest).length ≤ 4 := by
      have := List.length_pos_iff.mpr more
      rw [List.length_append, width]
      omega
    rw [readUnit, if_neg long, List.take_left' width, hexNumber?_hexDigits value isControl]
  have single : isHighHalf value = false := by
    simp only [isHighHalf, Bool.and_eq_false_iff, decide_eq_false_iff_not]
    omega
  rw [readUnicodeEscape, isUnit]
  simp [bind, Except.bind, single]

/-- A character is read back from what it is written as inside a string. -/
theorem readString_quotedChar
    (start position : Nat)
    (read : List Nat)
    (char : Char)
    {rest : List Char}
    (more : rest ≠ []) :
    ∃ next,
      readString start position read (quotedChar char ++ rest) =
        readString start next (char.toNat :: read) rest := by
  have letterRead
      {letter escaped : Char}
      (stands : escaped? letter = some escaped)
      (noNumerals : letter ≠ 'u') :
      ∃ next,
        readString start position read (['\x5c', letter] ++ rest) =
          readString start next (escaped.toNat :: read) rest := by
    refine ⟨position + 2, ?_⟩
    simp [readString, stands, noNumerals]
  unfold quotedChar
  iterate 7
    split
    · rename_i same
      subst same
      exact letterRead rfl (by decide)
  split
  · rename_i isControl
    refine ⟨position + 6, ?_⟩
    have numerals := readUnicodeEscape_hexDigits isControl (position + 1) more
    have behind : (hexDigits 4 char.toNat ++ rest).drop 4 = rest := List.drop_left' rfl
    change readString start position read
      ('\x5c' :: 'u' :: (hexDigits 4 char.toNat ++ rest)) = _
    rw [readString]
    simp [numerals, behind]
  · rename_i noMark noEscape _ _ _ _ _ noControl
    refine ⟨position + 1, ?_⟩
    rw [List.singleton_append, readString.eq_def]
    simp only [if_neg noMark, if_neg noEscape, if_neg noControl]

/-- The reader of documents takes a quoted text back, on top of what it has read so far. -/
theorem readString_flatMap_quotedChar
    (start position : Nat)
    (read : List Nat)
    (chars rest : List Char) :
    ∃ behind,
      readString start position read (chars.flatMap quotedChar ++ '\x22' :: rest) =
        .ok (.text (ofCodePoints (read.reverse ++ chars.map Char.toNat)), ⟨behind, rest⟩) := by
  induction chars generalizing position read with
  | nil =>
      refine ⟨position + 1, ?_⟩
      rw [List.flatMap_nil, List.nil_append, readString.eq_def]
      simp
  | cons char chars inductionHypothesis =>
      obtain ⟨next, isRead⟩ :=
        readString_quotedChar start position read char
          (List.append_ne_nil_of_right_ne_nil (chars.flatMap quotedChar)
            (List.cons_ne_nil '\x22' rest))
      obtain ⟨behind, isBehind⟩ := inductionHypothesis next (char.toNat :: read)
      refine ⟨behind, ?_⟩
      rw [List.flatMap_cons, List.append_assoc, isRead, isBehind]
      simp

end Json

end ZodSchemas
