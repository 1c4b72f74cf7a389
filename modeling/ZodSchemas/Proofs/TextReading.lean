import Mathlib.Data.List.Infix
import ZodSchemas.Proofs.QuotedStrings
import ZodSchemas.Proofs.UnitNames

namespace ZodSchemas

/-!
# Reading written texts back

A text can be taken apart again if every part of it shows where it ends.  The
readers here are made for written texts, and on other texts they may take
anything: a word of a table, the items of a list up to its closing mark, a
double-quoted string, and an object key.  A string is read by the reader of JSON
documents, so what is written in double quotes is a JSON string.
-/

/-- Take a value off the front of a text. -/
abbrev TextReader (α : Type) := List Char → Option (α × List Char)

/-- A character between two items of a list. -/
def isSeparator (char : Char) : Bool :=
  char == ',' || char == ' ' || char == '\n'

/-- A character that ends a list, an object or a call. -/
def isClosing (char : Char) : Bool :=
  char == ')' || char == ']' || char == '\x7d'

theorem isSeparator_of_isClosing
    {char : Char}
    (closes : isClosing char = true) :
    isSeparator char = false := by
  simp only [isClosing, Bool.or_eq_true, beq_iff_eq] at closes
  rcases closes with (rfl | rfl) | rfl <;> rfl

/-- Where an item ends: nothing follows, or a separator, or a closing mark. -/
def EndsItem (rest : List Char) : Prop :=
  ∀ char ∈ rest.head?, isSeparator char = true ∨ isClosing char = true

/-- Where a name ends: what follows does not continue it. -/
def EndsName (rest : List Char) : Prop :=
  ∀ char ∈ rest.head?, Text.isIdentifierPart char = false

theorem EndsItem.endsName
    {rest : List Char}
    (ends : EndsItem rest) :
    EndsName rest := by
  intro char first
  have isMark := ends char first
  simp only [isSeparator, isClosing, Bool.or_eq_true, beq_iff_eq] at isMark
  rcases isMark with ((rfl | rfl) | rfl) | ((rfl | rfl) | rfl) <;> rfl

/-- An item starts neither like a separator nor like a closing mark. -/
def StartsItem (text : List Char) : Prop :=
  ∃ first rest, text = first :: rest ∧ isSeparator first = false ∧ isClosing first = false

theorem endsItem_separators
    {separators rest : List Char}
    (separate : ∀ char ∈ separators, isSeparator char = true)
    (ends : EndsItem rest) :
    EndsItem (separators ++ rest) := by
  cases separators with
  | nil =>
      exact ends
  | cons first others =>
      rintro char ⟨⟩
      exact .inl (separate first List.mem_cons_self)

theorem StartsItem.append
    {text : List Char}
    (starts : StartsItem text)
    (rest : List Char) :
    StartsItem (text ++ rest) := by
  obtain ⟨first, others, rfl, noSeparator, noClosing⟩ := starts
  exact ⟨first, others ++ rest, rfl, noSeparator, noClosing⟩

/-- The front of a text up to the first character that does not belong to it. -/
theorem takeWhile_dropWhile_append
    {belongs : Char → Bool}
    {front rest : List Char}
    (within : ∀ char ∈ front, belongs char = true)
    (stops : ∀ char ∈ rest.head?, belongs char = false) :
    (front ++ rest).takeWhile belongs = front ∧ (front ++ rest).dropWhile belongs = rest := by
  rw [List.takeWhile_append_of_pos within, List.dropWhile_append_of_pos within]
  cases rest with
  | nil =>
      simp
  | cons char rest =>
      simp [stops char rfl]

/-- Behind the first of several texts, the others stand with the separator before each of them. -/
theorem Text.toList_intercalate_cons
    (separator first : String)
    (others : List String) :
    (separator.intercalate (first :: others)).toList =
      first.toList ++ others.flatMap fun text => separator.toList ++ text.toList := by
  induction others generalizing first with
  | nil =>
      simp
  | cons second others inductionHypothesis =>
      rw [String.intercalate_cons_cons, String.toList_append, String.toList_append,
        inductionHypothesis, List.flatMap_cons, List.append_assoc, List.append_assoc]

namespace TextReader

/-- A reader takes a value off the text that is written for it, wherever that text may stand. -/
def Takes (reader : TextReader α) (text : List Char) (value : α) : Prop :=
  ∀ rest, EndsItem rest → reader (text ++ rest) = some (value, rest)

/-! ## Words of a table -/

section Words

variable {ω : Type} (spelling : ω → String)

/-- The first word of a table that is spelled at the front of a text. -/
def firstWord? (words : List ω) : TextReader ω :=
  fun chars => words.findSome? fun word =>
    (chars.dropPrefix? (spelling word).toList).map (word, ·)

/-- No word of a table is spelled like the front of another one. -/
def IsPrefixFree (words : List ω) : Prop :=
  ∀ word ∈ words, ∀ other ∈ words,
    (spelling word).toList <+: (spelling other).toList → word = other

variable {spelling}

theorem eq_append_of_firstWord?
    {words : List ω}
    {word : ω}
    {chars rest : List Char}
    (taken : firstWord? spelling words chars = some (word, rest)) :
    word ∈ words ∧ chars = (spelling word).toList ++ rest := by
  obtain ⟨found, member, isTaken⟩ := List.exists_of_findSome?_eq_some taken
  obtain ⟨behind, dropped, same⟩ := Option.map_eq_some_iff.mp isTaken
  cases same
  obtain ⟨front, shape, isSpelling⟩ := List.dropPrefix?_eq_some_iff.mp dropped
  exact ⟨member, by rw [shape, eq_of_beq isSpelling]⟩

theorem firstWord?_eq_none
    {words : List ω}
    {chars : List Char}
    (misspelled : ∀ word ∈ words, ¬ (spelling word).toList <+: chars) :
    firstWord? spelling words chars = none := by
  cases taken : firstWord? spelling words chars with
  | none =>
      rfl
  | some found =>
      obtain ⟨member, shape⟩ := eq_append_of_firstWord? taken
      exact absurd ⟨found.2, shape.symm⟩ (misspelled found.1 member)

/-- In a prefix-free table a word is found where it is spelled. -/
theorem IsPrefixFree.firstWord?_append
    {words : List ω}
    (prefixFree : IsPrefixFree spelling words)
    {word : ω}
    (member : word ∈ words)
    (rest : List Char) :
    firstWord? spelling words ((spelling word).toList ++ rest) = some (word, rest) := by
  have found : (firstWord? spelling words ((spelling word).toList ++ rest)).isSome := by
    refine List.findSome?_isSome_iff.mpr ⟨word, member, ?_⟩
    rw [Option.isSome_map, Option.isSome_iff_exists]
    exact ⟨rest, List.dropPrefix?_eq_some_iff.mpr ⟨_, rfl, beq_self_eq_true _⟩⟩
  obtain ⟨⟨other, behind⟩, taken⟩ := Option.isSome_iff_exists.mp found
  obtain ⟨otherMember, shape⟩ := eq_append_of_firstWord? taken
  have same : other = word := by
    rcases List.prefix_or_prefix_of_prefix ⟨behind, shape.symm⟩
        (List.prefix_append (spelling word).toList rest) with isPrefix | isPrefix
    · exact prefixFree other otherMember word member isPrefix
    · exact (prefixFree word member other otherMember isPrefix).symm
  subst same
  rw [taken, List.append_cancel_left shape]

end Words

/-! ## A value and the mark behind it -/

/-- Put a value in its place and pass over the mark behind it. -/
def closed (wrap : α → β) (reader : TextReader α) : TextReader β :=
  fun chars => (reader chars).map fun taken => (wrap taken.1, taken.2.drop 1)

theorem closed_of_taken
    {reader : TextReader α}
    {chars rest : List Char}
    {value : α}
    {mark : Char}
    (taken : reader chars = some (value, mark :: rest))
    (wrap : α → β) :
    closed wrap reader chars = some (wrap value, rest) := by
  rw [closed, taken]
  rfl

/-! ## Items up to a closing mark -/

/-- Items with separators around them, up to a closing mark; at most so many as there is fuel. -/
def items (close : Char) (item : TextReader α) : Nat → TextReader (List α)
  | 0, _ => none
  | fuel + 1, chars =>
      match chars.dropWhile isSeparator with
      | [] => none
      | first :: rest =>
          if first = close then
            some ([], rest)
          else
            (item (first :: rest)).bind fun taken =>
              (items close item fuel taken.2).map fun others => (taken.1 :: others.1, others.2)

/-- Separators in front of the first item are passed over. -/
theorem items_separators
    {close : Char}
    {item : TextReader α}
    {separators : List Char}
    (separate : ∀ char ∈ separators, isSeparator char = true)
    (fuel : Nat)
    (chars : List Char) :
    items close item fuel (separators ++ chars) = items close item fuel chars := by
  cases fuel with
  | zero =>
      rfl
  | succ fuel =>
      rw [items, items, List.dropWhile_append_of_pos separate]

theorem items_close
    {close : Char}
    (closes : isClosing close = true)
    (item : TextReader α)
    (fuel : Nat)
    (rest : List Char) :
    items close item (fuel + 1) (close :: rest) = some ([], rest) := by
  rw [items, List.dropWhile_cons_of_neg (by simp [isSeparator_of_isClosing closes])]
  exact if_pos rfl

theorem items_cons
    {close : Char}
    (closes : isClosing close = true)
    {item : TextReader α}
    {text rest : List Char}
    {value : α}
    (starts : StartsItem text)
    (taken : item text = some (value, rest))
    (fuel : Nat) :
    items close item (fuel + 1) text =
      (items close item fuel rest).map fun others => (value :: others.1, others.2) := by
  obtain ⟨first, others, rfl, noSeparator, noClosing⟩ := starts
  have stays : first ≠ close := by
    rintro rfl
    exact absurd closes (by simp [noClosing])
  rw [items, List.dropWhile_cons_of_neg (by simp [noSeparator])]
  simp only [if_neg stays, taken, Option.bind_some]

/-- A list is read back if each of its items is: the items have a lead before them, and behind the
last one a trail comes before the closing mark. -/
theorem items_flatMap
    {close : Char}
    (closes : isClosing close = true)
    {item : TextReader α}
    {lead trail : List Char}
    (leads : lead ≠ [] ∧ ∀ char ∈ lead, isSeparator char = true)
    (trails : ∀ char ∈ trail, isSeparator char = true)
    {entries : List β}
    {text : β → List Char}
    {value : β → α}
    (starts : ∀ entry ∈ entries, StartsItem (text entry))
    (takes : ∀ entry ∈ entries, item.Takes (text entry) (value entry))
    {fuel : Nat}
    (enough : entries.length < fuel)
    (rest : List Char) :
    items close item fuel
        (entries.flatMap (fun entry => lead ++ text entry) ++ (trail ++ close :: rest)) =
      some (entries.map value, rest) := by
  induction entries generalizing fuel with
  | nil =>
      obtain ⟨fuel, rfl⟩ := Nat.exists_eq_add_of_lt enough
      rw [List.flatMap_nil, List.nil_append, items_separators trails]
      exact items_close closes item _ rest
  | cons first others inductionHypothesis =>
      obtain ⟨fuel, rfl⟩ : ∃ less, fuel = less + 1 :=
        ⟨fuel - 1, by omega⟩
      rw [List.forall_mem_cons] at starts takes
      have ends :
          EndsItem (others.flatMap (fun entry => lead ++ text entry) ++
            (trail ++ close :: rest)) := by
        cases others with
        | nil =>
            change EndsItem (trail ++ close :: rest)
            refine endsItem_separators trails ?_
            rintro char ⟨⟩
            exact .inr closes
        | cons second others =>
            obtain ⟨first, behind, rfl⟩ := List.exists_cons_of_ne_nil leads.1
            rintro char ⟨⟩
            exact .inl (leads.2 _ List.mem_cons_self)
      rw [List.flatMap_cons, List.append_assoc, List.append_assoc, items_separators leads.2,
        items_cons closes (starts.1.append _) (takes.1 _ ends),
        inductionHypothesis starts.2 takes.2 (by simpa using enough)]
      rfl

/-- Items that are joined by a separator have it before each of them, as far as the reader of items
can tell. -/
theorem items_intercalate
    {close : Char}
    {item : TextReader α}
    {separator : String}
    (separate : ∀ char ∈ separator.toList, isSeparator char = true)
    (texts : List String)
    (fuel : Nat)
    (rest : List Char) :
    items close item fuel ((separator.intercalate texts).toList ++ rest) =
      items close item fuel
        (texts.flatMap (fun text => separator.toList ++ text.toList) ++ rest) := by
  cases texts with
  | nil =>
      rfl
  | cons first others =>
      rw [Text.toList_intercalate_cons, List.flatMap_cons, List.append_assoc, List.append_assoc,
        List.append_assoc, items_separators separate]

/-- A list whose items are joined by commas is read back if each of its items is. -/
theorem items_joined
    {close : Char}
    (closes : isClosing close = true)
    {item : TextReader α}
    {entries : List β}
    {text : β → String}
    {value : β → α}
    (starts : ∀ entry ∈ entries, StartsItem (text entry).toList)
    (takes : ∀ entry ∈ entries, item.Takes (text entry).toList (value entry))
    {fuel : Nat}
    (enough : entries.length < fuel)
    (rest : List Char) :
    items close item fuel ((", ".intercalate (entries.map text)).toList ++ close :: rest) =
      some (entries.map value, rest) := by
  have leads : ", ".toList ≠ [] ∧ ∀ char ∈ ", ".toList, isSeparator char = true :=
    ⟨by decide, List.all_eq_true.mp (by decide)⟩
  rw [items_intercalate leads.2, List.flatMap_map]
  exact items_flatMap closes leads (List.forall_mem_nil _) starts takes enough rest

/-! ## Strings and keys -/

/-- A string in double quotes, as the reader of documents reads it. -/
def quoted : TextReader String
  | [] => none
  | _ :: inside =>
      match Json.readString 0 0 [] inside with
      | .ok (.text value, cursor) =>
          some (String.ofList ((Text.codePoints value).map Char.ofNat), cursor.rest)
      | _ => none

theorem quoted_append
    (text : String)
    (rest : List Char) :
    quoted ((Text.quoted text).toList ++ rest) = some (text, rest) := by
  obtain ⟨behind, isRead⟩ := Json.readString_flatMap_quotedChar 0 0 [] text.toList rest
  have chars : (Text.codePoints (Text.ofChars text.toList)).map Char.ofNat = text.toList := by
    simp [Text.codePoints_ofChars, Function.comp_def]
  have shape :
      (Text.quoted text).toList ++ rest =
        '\x22' :: (text.toList.flatMap Text.quotedChar ++ '\x22' :: rest) := by
    simp [Text.quoted]
  rw [shape, quoted, isRead]
  change some (String.ofList ((Text.codePoints (Text.ofChars text.toList)).map Char.ofNat), _) = _
  rw [chars, String.ofList_toList]

theorem takes_quoted
    (text : String) :
    quoted.Takes (Text.quoted text).toList text :=
  fun rest _ => quoted_append text rest

theorem startsItem_quoted
    (text : String) :
    StartsItem (Text.quoted text).toList :=
  ⟨'\x22', text.toList.flatMap Text.quotedChar ++ ['\x22'], by simp [Text.quoted], rfl, rfl⟩

theorem startsItem_of_isIdentifierStart
    {first : Char}
    (starts : Text.isIdentifierStart first = true)
    (rest : List Char) :
    StartsItem (first :: rest) := by
  have differs {other : Char} (noStart : Text.isIdentifierStart other = false) :
      (first == other) = false := by
    refine beq_false_of_ne ?_
    rintro rfl
    exact absurd starts (by simp [noStart])
  refine ⟨first, rest, rfl, ?_, ?_⟩
  · rw [isSeparator, differs rfl, differs rfl, differs rfl]
    rfl
  · rw [isClosing, differs rfl, differs rfl, differs rfl]
    rfl

theorem startsItem_of_isIdentifier
    {name : String}
    (valid : Text.isIdentifier name = true) :
    StartsItem name.toList := by
  obtain ⟨first, rest, shape, starts, -⟩ := Text.exists_start_of_isIdentifier valid
  rw [shape]
  exact startsItem_of_isIdentifierStart starts rest

theorem bne_of_not_mem
    {mark : Char}
    {chars : List Char}
    (unmarked : mark ∉ chars) :
    ∀ char ∈ chars, (char != mark) = true := by
  intro char member
  rw [bne_iff_ne]
  rintro rfl
  exact unmarked member

/-- The key of a field, up to the colon behind it. -/
def key (chars : List Char) : Option (String × List Char) :=
  if chars.head? = some '\x22' then
    quoted chars
  else
    some (String.ofList (chars.takeWhile (· != ':')), chars.dropWhile (· != ':'))

/-- A key is read back, whether it stands bare or in double quotes. -/
theorem key_append
    (name : String)
    (rest : List Char) :
    key ((Text.objectKey name).toList ++ ':' :: rest) = some (name, ':' :: rest) := by
  unfold Text.objectKey
  split
  · rename_i valid
    obtain ⟨first, others, shape, starts, -⟩ := Text.exists_start_of_isIdentifier valid
    have bare : (name.toList ++ ':' :: rest).head? ≠ some '\x22' := by
      rw [shape]
      rintro ⟨⟩
      exact absurd starts (by decide)
    have noColon : ∀ char ∈ name.toList, (char != ':') = true :=
      bne_of_not_mem (Text.not_mem_of_isIdentifier valid rfl (by decide))
    have atColon : ∀ char ∈ (':' :: rest).head?, (char != ':') = false := by
      rintro char ⟨⟩
      rfl
    obtain ⟨isName, isRest⟩ := takeWhile_dropWhile_append noColon atColon
    rw [key, if_neg bare, isName, isRest, String.ofList_toList]
  · have inQuotes : ((Text.quoted name).toList ++ ':' :: rest).head? = some '\x22' := by
      simp [Text.quoted]
    rw [key, if_pos inQuotes, quoted_append]

theorem startsItem_objectKey
    (name : String) :
    StartsItem (Text.objectKey name).toList := by
  unfold Text.objectKey
  split
  · rename_i valid
    exact startsItem_of_isIdentifier valid
  · exact startsItem_quoted name

end TextReader

end ZodSchemas
