import ZodSchemas.Proofs.WholeTexts

namespace ZodSchemas

/-!
# Texts that end no mark

A quoted text ends with a quotation mark, so what follows it is read on its own,
whatever has been quoted.  A written list or object therefore has bytes exactly if
all of its parts have, and a manifest that can be written can also be written
with fewer records.
-/

namespace Text

/-- What follows a string is read on its own. -/
def IsClosed (string : String) : Prop :=
  ∀ rest, codePoints (string ++ rest) = codePoints string ++ codePoints rest

theorem IsText.isClosed
    {string : String}
    (isText : IsText string) :
    IsClosed string :=
  isText.codePoints_append

namespace IsClosed

theorem append
    {first second : String}
    (closed : IsClosed first)
    (closedToo : IsClosed second) :
    IsClosed (first ++ second) := fun rest => by
  rw [String.append_assoc, closed, closedToo, closed, List.append_assoc]

theorem isWhole_append
    {first : String}
    (closed : IsClosed first)
    (second : String) :
    isWhole (first ++ second) = (isWhole first && isWhole second) := by
  rw [isWhole, isWhole, isWhole, closed, List.any_append, Bool.not_or]

end IsClosed

/-- A character other than the mark, which may have a mark before it, ends what has been read. -/
theorem codesBehind_append_cons
    {last : Char}
    (noMark : last ≠ selfMark)
    (rest : List Char) :
    ∀ chars : List Char,
      codesBehind [] (chars ++ last :: rest) =
        codesBehind [] (chars ++ [last]) ++ codesBehind [] rest
  | [] => codesBehind_cons_of_ne_selfMark noMark rest
  | [char] => by
      by_cases isMark : char = selfMark
      · subst isMark
        exact codesBehind_selfMark_cons last rest
      · change codesBehind [] (char :: last :: rest) = codesBehind [] [char, last] ++ _
        rw [codesBehind_cons_of_ne_selfMark isMark, codesBehind_cons_of_ne_selfMark isMark,
          codesBehind_cons_of_ne_selfMark noMark]
        rfl
  | char :: next :: chars => by
      by_cases isMark : char = selfMark
      · subst isMark
        change codesBehind [] (selfMark :: next :: (chars ++ last :: rest)) =
          codesBehind [] (selfMark :: next :: (chars ++ [last])) ++ _
        rw [codesBehind_selfMark_cons, codesBehind_selfMark_cons,
          codesBehind_append_cons noMark rest chars, List.cons_append]
      · have behind := codesBehind_append_cons noMark rest (next :: chars)
        rw [List.cons_append, List.cons_append] at behind
        change codesBehind [] (char :: next :: (chars ++ last :: rest)) =
          codesBehind [] (char :: next :: (chars ++ [last])) ++ _
        rw [codesBehind_cons_of_ne_selfMark isMark, codesBehind_cons_of_ne_selfMark isMark, behind,
          List.cons_append]

theorem isClosed_quoted
    (string : String) :
    IsClosed (quoted string) := fun rest => by
  have shape (behind : List Char) :
      (quoted string).toList ++ behind =
        ('\x22' :: string.toList.flatMap quotedChar) ++ '\x22' :: behind := by
    rw [quoted, String.toList_ofList, List.append_assoc, List.singleton_append]
  rw [codePoints, codePoints, codePoints, String.toList_append, shape,
    codesBehind_append_cons (by decide), ← shape, List.append_nil]

/-- A closed text, which has bytes exactly if a condition holds. -/
structure HasBytesIff (string : String) (condition : Prop) : Prop where
  closed : IsClosed string
  iff : isWhole string = true ↔ condition

theorem IsWholeText.hasBytesIff
    {string : String}
    (isWholeText : IsWholeText string) :
    HasBytesIff string True :=
  ⟨isWholeText.isText.isClosed, iff_true_intro isWholeText.isWhole⟩

theorem IsClosed.hasBytesIff
    {string : String}
    (closed : IsClosed string) :
    HasBytesIff string (isWhole string = true) :=
  ⟨closed, Iff.rfl⟩

namespace HasBytesIff

theorem append
    {first second : String}
    {condition other : Prop}
    (has : HasBytesIff first condition)
    (hasToo : HasBytesIff second other) :
    HasBytesIff (first ++ second) (condition ∧ other) where
  closed := has.closed.append hasToo.closed
  iff := by
    rw [has.closed.isWhole_append, Bool.and_eq_true, has.iff, hasToo.iff]

theorem congr
    {string : String}
    {condition other : Prop}
    (has : HasBytesIff string condition)
    (same : condition ↔ other) :
    HasBytesIff string other :=
  ⟨has.closed, has.iff.trans same⟩

theorem intercalate
    {between : String}
    (isBetween : IsWholeText between)
    {texts : List String}
    (closed : ∀ text ∈ texts, IsClosed text) :
    HasBytesIff (between.intercalate texts) (∀ text ∈ texts, isWhole text = true) := by
  induction texts with
  | nil =>
      exact (isWholeText_of_ascii rfl).hasBytesIff.congr (by simp)
  | cons text rest inductionHypothesis =>
      rw [List.forall_mem_cons] at closed
      by_cases isLast : rest = []
      · rw [isLast, String.intercalate_singleton]
        exact closed.1.hasBytesIff.congr (by simp)
      · rw [String.intercalate_cons_of_ne_nil isLast]
        refine ((closed.1.hasBytesIff.append isBetween.hasBytesIff).append
          (inductionHypothesis closed.2)).congr ?_
        rw [and_true, List.forall_mem_cons]

end HasBytesIff

end Text

namespace Json

open Data Text

/-- Parts that are enclosed have bytes together exactly if each of them has. -/
theorem hasBytesIff_enclose
    {left right : String}
    (isLeft : IsWholeText left)
    (isRight : IsWholeText right)
    (step indent : Nat)
    {parts : List String}
    (closed : ∀ part ∈ parts, IsClosed part) :
    HasBytesIff (enclose (.indented step indent) left right parts)
      (∀ part ∈ parts, isWhole part = true) := by
  have between : IsWholeText (Layout.between (.indented step (indent + step))) :=
    (isWholeText_of_ascii (by decide)).append (isWholeText_lead step (indent + step))
  unfold enclose
  split
  · rename_i isEmpty
    exact (isLeft.append isRight).hasBytesIff.congr (by simp [List.isEmpty_iff.mp isEmpty])
  · refine ((((isLeft.append (isWholeText_lead step (indent + step))).hasBytesIff.append
      (.intercalate between closed)).append
        (isWholeText_lead step indent).hasBytesIff).append isRight.hasBytesIff).congr ?_
    rw [true_and, and_true, and_true]

/-- A value whose text is closed, wherever it stands. -/
def WritesClosed (value : Value) : Prop :=
  ∀ step indent, IsClosed (write (.indented step indent) value)

theorem writesClosed_text
    (text : String) :
    WritesClosed (.text text) := fun step indent => by
  rw [Value.text, write]
  exact isClosed_quoted text

theorem IsWritable.writesClosed
    {value : Value}
    (writable : IsWritable value) :
    WritesClosed value := fun step indent =>
  (writable step indent).isText.isClosed

theorem hasBytesIff_list
    {items : List Value}
    (closed : ∀ item ∈ items, WritesClosed item)
    (step indent : Nat) :
    HasBytesIff (write (.indented step indent) (.list items))
      (∀ item ∈ items, isWhole (write (.indented step (indent + step)) item) = true) := by
  have parts : writeItems (.indented step (indent + step)) items =
      items.map (write (.indented step (indent + step))) := by
    clear closed
    induction items with
    | nil =>
        rfl
    | cons item rest inductionHypothesis =>
        rw [writeItems, inductionHypothesis, List.map_cons]
  rw [write, Layout.inner, parts]
  refine (hasBytesIff_enclose (isWholeText_of_ascii (by decide))
    (isWholeText_of_ascii (by decide)) step indent ?_).congr List.forall_mem_map
  exact List.forall_mem_map.mpr fun item member => closed item member step (indent + step)

theorem hasBytesIff_object
    {entries : List (String × Value)}
    (closed : ∀ entry ∈ entries, IsWholeText entry.1 ∧ WritesClosed entry.2)
    (step indent : Nat) :
    HasBytesIff (write (.indented step indent) (.object entries))
      (∀ entry ∈ entries,
        isWhole (write (.indented step (indent + step)) entry.2) = true) := by
  have parts : writeEntries (.indented step (indent + step))
      (entries.map fun entry => (.text entry.1, entry.2)) =
        entries.map fun entry =>
          quoted entry.1 ++ ": " ++ write (.indented step (indent + step)) entry.2 := by
    clear closed
    induction entries with
    | nil =>
        rfl
    | cons entry rest inductionHypothesis =>
        rw [List.map_cons, writeEntries, inductionHypothesis, List.map_cons]
        rfl
  have part (entry : String × Value) (member : entry ∈ entries) :
      HasBytesIff (quoted entry.1 ++ ": " ++ write (.indented step (indent + step)) entry.2)
        (isWhole (write (.indented step (indent + step)) entry.2) = true) :=
    (((closed entry member).1.quoted.append (isWholeText_of_ascii (by decide))).hasBytesIff.append
      ((closed entry member).2 step (indent + step)).hasBytesIff).congr (by rw [true_and])
  rw [Value.object, write, Layout.inner, parts]
  refine (hasBytesIff_enclose (isWholeText_of_ascii (by decide))
    (isWholeText_of_ascii (by decide)) step indent ?_).congr ?_
  · exact List.forall_mem_map.mpr fun entry member => (part entry member).closed
  · rw [List.forall_mem_map]
    exact forall₂_congr fun entry member => (part entry member).iff

end Json

namespace Export

open Data Json Text

theorem Record.writesClosed_value
    (record : Record) :
    WritesClosed record.value := fun step indent => by
  have key {name : String} (ascii : isAscii name = true) : IsWholeText name :=
    isWholeText_of_ascii ascii
  refine (hasBytesIff_object ?_ step indent).closed
  simp only [List.forall_mem_cons]
  exact ⟨⟨key (by decide), writesClosed_text _⟩,
    ⟨key (by decide), (isWritable_int _).writesClosed⟩,
    ⟨key (by decide), (isWritable_int _).writesClosed⟩,
    ⟨key (by decide), writesClosed_text _⟩, List.forall_mem_nil _⟩

/-- A manifest can be written if its time, its directory and its records can. -/
theorem Manifest.isWhole_content_iff
    (manifest : Manifest) :
    isWhole manifest.file.content = true ↔
      isWhole (quoted manifest.time) = true ∧ isWhole (quoted manifest.directory) = true ∧
        ∀ record ∈ manifest.records,
          isWhole (write (.indented 2 4) record.value) = true := by
  have key {name : String} (ascii : isAscii name = true) : IsWholeText name :=
    isWholeText_of_ascii ascii
  have records : ∀ item ∈ manifest.records.map Record.value, WritesClosed item :=
    List.forall_mem_map.mpr fun record _ => record.writesClosed_value
  have number (value : Nat) :
      isWhole (write (.indented 2 2) (.int value)) = true :=
    (isWritable_int value 2 2).isWhole
  have version : isWhole (write (.indented 2 2) (.text version)) = true :=
    (isWritable_text (key (by decide)) 2 2).isWhole
  have list := (hasBytesIff_list records 2 2).iff
  rw [List.forall_mem_map] at list
  refine (hasBytesIff_object ?_ 2 0).iff.trans ?_
  · simp only [List.forall_mem_cons]
    exact ⟨⟨key (by decide), writesClosed_text _⟩, ⟨key (by decide), writesClosed_text _⟩,
      ⟨key (by decide), writesClosed_text _⟩,
      ⟨key (by decide), (isWritable_int _).writesClosed⟩,
      ⟨key (by decide), (isWritable_int _).writesClosed⟩,
      ⟨key (by decide), (isWritable_int _).writesClosed⟩,
      ⟨key (by decide), fun step indent => (hasBytesIff_list records step indent).closed⟩,
      List.forall_mem_nil _⟩
  · simp only [List.forall_mem_cons, List.not_mem_nil, false_imp_iff, implies_true, and_true,
      number, version, list, true_and]
    rfl

/-- A manifest that can be written can be written with fewer records. -/
theorem Manifest.isWhole_content_of_subset
    {time directory : String}
    {records others : List Record}
    (fewer : others ⊆ records)
    (isWhole : isWhole (Manifest.file ⟨time, directory, records⟩).content = true) :
    Text.isWhole (Manifest.file ⟨time, directory, others⟩).content = true := by
  rw [isWhole_content_iff] at isWhole ⊢
  obtain ⟨atTime, atDirectory, atRecords⟩ := isWhole
  exact ⟨atTime, atDirectory, fun record member => atRecords record (fewer member)⟩

end Export

end ZodSchemas
