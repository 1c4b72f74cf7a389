import ZodSchemas.Proofs.ExpressionReading
import ZodSchemas.Proofs.References
import ZodSchemas.Proofs.Rendering

namespace ZodSchemas

/-!
# Texts are unambiguous

Two expressions with the same text differ at most in which schema a symbol
belongs to.  The text of an expression is read back as the expression with each
reference replaced by its symbol, so nothing else about the expression is lost:
neither the nesting, nor the wrappers and their order, nor the names, the values
and the strictness.  This holds for the primitive calls of the scalar types, and
for symbols and host types that are identifiers.
-/

/-- A reference that has nothing but the symbol of another one as its name. -/
def Reference.bySymbol (target : Reference) : Reference :=
  ⟨target.symbol, .operation⟩

namespace Expr

mutual

/-- The expression with each reference replaced by its symbol. -/
def bySymbols : Expr → Expr
  | .reference target => .reference target.bySymbol
  | .deferred inner hostType => .deferred (bySymbols inner) hostType
  | .array inner => .array (bySymbols inner)
  | .optional inner => .optional (bySymbols inner)
  | .nullable inner => .nullable (bySymbols inner)
  | .union members => .union (allBySymbols members)
  | .object fields strict => .object (fieldsBySymbols fields) strict
  | .primitive code => .primitive code
  | .json => .json
  | .enumeration values => .enumeration values
  | .foreign className => .foreign className

/-- Several expressions with each reference replaced by its symbol. -/
def allBySymbols : List Expr → List Expr
  | [] => []
  | first :: rest => bySymbols first :: allBySymbols rest

/-- Several fields with each reference replaced by its symbol. -/
def fieldsBySymbols : List (String × Expr) → List (String × Expr)
  | [] => []
  | (name, value) :: rest => (name, bySymbols value) :: fieldsBySymbols rest

end

theorem allBySymbols_eq_map
    (members : List Expr) :
    allBySymbols members = members.map bySymbols := by
  induction members with
  | nil =>
      rfl
  | cons first rest inductionHypothesis =>
      rw [allBySymbols, inductionHypothesis, List.map_cons]

theorem fieldsBySymbols_eq_map
    (fields : List (String × Expr)) :
    fieldsBySymbols fields = fields.map fun field => (field.1, field.2.bySymbols) := by
  induction fields with
  | nil =>
      rfl
  | cons first rest inductionHypothesis =>
      rw [fieldsBySymbols, inductionHypothesis, List.map_cons]

/-- The expressions whose texts show what they are: primitive calls are those of the scalar types,
and symbols and host types are identifiers, where the symbol of the shared validator for arbitrary
JSON stands for nothing else. -/
inductive Legible : Expr → Prop
  | primitive {code : String} (listed : code ∈ Assembly.primitiveCodes.map (·.2)) :
      Legible (.primitive code)
  | json : Legible .json
  | reference {target : Reference} (valid : Text.isIdentifier target.symbol = true)
      (noJson : target.symbol ≠ jsonSymbol) :
      Legible (.reference target)
  | deferred {inner : Expr} {hostType : Option String} (legible : Legible inner)
      (valid : ∀ name ∈ hostType, Text.isIdentifier name = true) :
      Legible (.deferred inner hostType)
  | array {inner : Expr} (legible : Legible inner) : Legible (.array inner)
  | optional {inner : Expr} (legible : Legible inner) : Legible (.optional inner)
  | nullable {inner : Expr} (legible : Legible inner) : Legible (.nullable inner)
  | union {members : List Expr} (legible : ∀ member ∈ members, Legible member) :
      Legible (.union members)
  | object {fields : List (String × Expr)} (legible : ∀ field ∈ fields, Legible field.2)
      (strict : Bool) :
      Legible (.object fields strict)
  | enumeration (values : List String) : Legible (.enumeration values)

/-! ## Where texts start -/

theorem startsItem_of_opened
    {text : List Char}
    (opened : ['z', '.'] <+: text) :
    StartsItem text := by
  obtain ⟨rest, rfl⟩ := opened
  exact ⟨'z', '.' :: rest, rfl, rfl, rfl⟩

theorem startsItem_spelling
    {opening : Opening}
    (member : opening ∈ Opening.all)
    (rest : List Char) :
    StartsItem (opening.spelling.toList ++ rest) :=
  startsItem_of_opened ((Opening.point_second opening member).trans (List.prefix_append _ rest))

/-- The text of an expression starts neither like a separator nor like a closing mark. -/
theorem Legible.startsItem
    {expr : Expr}
    (legible : expr.Legible)
    (level : Int) :
    StartsItem (expr.chars level) := by
  induction legible with
  | primitive listed =>
      rw [chars_primitive]
      rcases primitive_cases _ listed with opens | rfl
      · exact startsItem_of_opened (Opening.point_second _ opens)
      · exact startsItem_of_opened (by decide)
  | json =>
      rw [chars_json]
      exact TextReader.startsItem_of_isIdentifier (by decide)
  | reference valid noJson =>
      rw [chars_reference]
      exact TextReader.startsItem_of_isIdentifier valid
  | @deferred inner hostType legible valid inductionHypothesis =>
      cases hostType with
      | none =>
          rw [chars_deferred]
          exact startsItem_spelling (by decide) _
      | some name =>
          have isNamed : name ≠ "" := by
            rintro rfl
            exact absurd (valid "" rfl) (by decide)
          rw [chars_annotated level inner isNamed]
          exact startsItem_spelling (by decide) _
  | array legible inductionHypothesis =>
      rw [chars_array]
      exact inductionHypothesis.append _
  | optional legible inductionHypothesis =>
      rw [chars_optional]
      exact inductionHypothesis.append _
  | nullable legible inductionHypothesis =>
      rw [chars_nullable]
      exact inductionHypothesis.append _
  | union legible inductionHypothesis =>
      rw [chars_union]
      exact startsItem_spelling (by decide) _
  | object legible strict inductionHypothesis =>
      rw [chars_object]
      exact startsItem_spelling (by decide) _
  | enumeration values =>
      rw [chars_enumeration]
      exact startsItem_spelling (by decide) _

/-! ## Reading texts back -/

/-- The text of an expression is read back with each reference replaced by its symbol; the methods
behind it are applied to that. -/
def ReadsBack (expr : Expr) : Prop :=
  ∀ fuel level rest, sizeOf expr < fuel → EndsName rest →
    read fuel (expr.chars level ++ rest) = some (followed expr.bySymbols rest)

open TextReader

theorem ReadsBack.takes
    {expr : Expr}
    (readsBack : expr.ReadsBack)
    {fuel : Nat}
    (enough : sizeOf expr < fuel)
    (level : Int) :
    (read fuel).Takes (expr.chars level) expr.bySymbols := by
  intro rest ends
  rw [readsBack fuel level rest enough ends.endsName, followed_of_endsItem ends]

/-- A method behind an expression is applied to what the expression is read back as. -/
theorem ReadsBack.method
    {inner outer : Expr}
    (readsBack : inner.ReadsBack)
    (method : Method)
    (written : ∀ level, outer.chars level = inner.chars level ++ method.spelling.toList)
    (applied : outer.bySymbols = method.apply inner.bySymbols)
    (smaller : sizeOf inner < sizeOf outer) :
    outer.ReadsBack := by
  intro fuel level rest enough ends
  have point : EndsName (method.spelling.toList ++ rest) := by
    obtain ⟨behind, shape⟩ := method.point_first
    rw [← shape]
    rintro char ⟨⟩
    rfl
  rw [written, List.append_assoc, readsBack fuel level _ (smaller.trans enough) point,
    followed_spelling, applied]

/-- Only the case of some fuel is left to show: there is more of it than an expression is large. -/
theorem readsBack_of_succ
    {expr : Expr}
    (readsBack :
      ∀ fuel level rest, sizeOf expr ≤ fuel → EndsName rest →
        read (fuel + 1) (expr.chars level ++ rest) = some (followed expr.bySymbols rest)) :
    expr.ReadsBack := by
  intro fuel level rest enough ends
  obtain ⟨less, rfl⟩ := Nat.exists_eq_succ_of_ne_zero (Nat.ne_zero_of_lt enough)
  exact readsBack less level rest (Nat.le_of_lt_succ enough) ends

theorem readsBack_primitive
    {code : String}
    (listed : code ∈ Assembly.primitiveCodes.map (·.2)) :
    (Expr.primitive code).ReadsBack := by
  refine readsBack_of_succ fun fuel level rest enough ends => ?_
  rw [chars_primitive]
  rcases primitive_cases code listed with opens | rfl
  · exact read_spelling opens _ rest
  · -- The call for whole numbers is read as the one for numbers with a method behind it.
    have opens : .call "z.number()" ∈ Opening.all := by
      decide
    rw [String.toList_append, List.append_assoc]
    exact (read_spelling opens _ _).trans
      (congrArg some (followed_spelling .wholeNumber (.primitive "z.number()") rest))

theorem readsBack_json : Expr.json.ReadsBack := by
  refine readsBack_of_succ fun fuel level rest enough ends => ?_
  have continues : ∀ char ∈ jsonSymbol.toList, Text.isIdentifierPart char = true :=
    List.all_eq_true.mp (by decide)
  rw [chars_json]
  exact read_name continues (by decide) ends fuel

/-- A symbol that is an identifier has no line feed behind it, because of what it ends in. -/
theorem isIdentifierPart_of_mem_symbol
    {target : Reference}
    (valid : Text.isIdentifier target.symbol = true) :
    ∀ char ∈ target.symbol.toList, Text.isIdentifierPart char = true := by
  have noLineFeed : target.symbol.toList.getLast? ≠ some '\n' := by
    obtain ⟨front, shape⟩ := target.suffix_symbol
    have last : "Schema".toList.getLast? = some 'a' := by
      decide
    rw [← shape, List.getLast?_append, last, Option.some_or]
    decide
  simp only [Text.isIdentifier, Text.isIdentifierText, Bool.or_eq_true, Bool.and_eq_true,
    beq_iff_eq] at valid
  rcases valid with spelled | ⟨lineFeed, -⟩
  · obtain ⟨first, rest, shape, starts, continues⟩ :=
      Text.exists_start_of_isStrictIdentifier spelled
    rw [shape, List.forall_mem_cons]
    exact ⟨by simp [Text.isIdentifierPart, starts], continues⟩
  · exact absurd lineFeed noLineFeed

theorem readsBack_reference
    {target : Reference}
    (valid : Text.isIdentifier target.symbol = true)
    (noJson : target.symbol ≠ jsonSymbol) :
    (Expr.reference target).ReadsBack := by
  refine readsBack_of_succ fun fuel level rest enough ends => ?_
  have long : 2 ≤ target.symbol.toList.length :=
    Nat.le_trans (by decide) target.suffix_symbol.length_le
  have isNamed : named target.symbol.toList = .reference target.bySymbol := by
    rw [named, if_neg fun same => noJson (String.toList_inj.mp same), String.ofList_toList]
    rfl
  rw [chars_reference]
  refine (read_name (isIdentifierPart_of_mem_symbol valid) long ends fuel).trans ?_
  rw [isNamed, bySymbols]

/-- Between the opening of a deferred binding and its closing mark the inner expression is read. -/
theorem ReadsBack.enclosed
    {inner : Expr}
    (readsBack : inner.ReadsBack)
    {fuel : Nat}
    (enough : sizeOf inner < fuel)
    (level : Int)
    (rest : List Char) :
    read fuel (inner.chars level ++ ')' :: rest) = some (inner.bySymbols, ')' :: rest) := by
  refine readsBack.takes enough level _ ?_
  rintro char ⟨⟩
  exact .inr rfl

theorem ReadsBack.deferred
    {inner : Expr}
    (readsBack : inner.ReadsBack) :
    (Expr.deferred inner none).ReadsBack := by
  refine readsBack_of_succ fun fuel level rest enough ends => ?_
  rw [deferred.sizeOf_spec] at enough
  have smaller : sizeOf inner < fuel := by
    omega
  rw [chars_deferred, List.append_assoc, List.append_assoc]
  refine (read_spelling (by decide) _ _).trans ?_
  rw [readInside, List.singleton_append, closed_of_taken (readsBack.enclosed smaller level rest)]
  rfl

theorem ReadsBack.annotated
    {inner : Expr}
    (readsBack : inner.ReadsBack)
    {name : String}
    (valid : Text.isIdentifier name = true) :
    (Expr.deferred inner (some name)).ReadsBack := by
  refine readsBack_of_succ fun fuel level rest enough ends => ?_
  rw [deferred.sizeOf_spec] at enough
  have smaller : sizeOf inner < fuel := by
    omega
  have isNamed : name ≠ "" := by
    rintro rfl
    contradiction
  have noMark : ∀ char ∈ name.toList, (char != '>') = true :=
    bne_of_not_mem (Text.not_mem_of_isIdentifier valid rfl (by decide))
  have atMark (chars : List Char) :
      ∀ char ∈ ("> => ".toList ++ chars).head?, (char != '>') = false := by
    rintro char ⟨⟩
    rfl
  have behind (chars : List Char) : ("> => ".toList ++ chars).drop 5 = chars :=
    List.drop_left' rfl
  obtain ⟨isName, isRest⟩ :=
    takeWhile_dropWhile_append noMark (atMark (inner.chars level ++ ([')'] ++ rest)))
  rw [chars_annotated level inner isNamed, List.append_assoc, List.append_assoc,
    List.append_assoc, List.append_assoc]
  refine (read_spelling (by decide) _ _).trans ?_
  rw [readInside, isName, isRest, behind, List.singleton_append,
    closed_of_taken (readsBack.enclosed smaller level rest), String.ofList_toList]
  rfl

/-- There are fewer items in a list than the list is large. -/
theorem length_lt_sizeOf
    [SizeOf α]
    (items : List α) :
    items.length < sizeOf items := by
  induction items with
  | nil =>
      exact Nat.zero_lt_one
  | cons first rest inductionHypothesis =>
      rw [List.length_cons, List.cons.sizeOf_spec]
      omega

theorem readsBack_union
    {members : List Expr}
    (readsBack : ∀ member ∈ members, member.ReadsBack)
    (starts : ∀ member ∈ members, ∀ level, StartsItem (member.chars level)) :
    (Expr.union members).ReadsBack := by
  refine readsBack_of_succ fun fuel level rest enough ends => ?_
  rw [union.sizeOf_spec] at enough
  have takes :
      ∀ member ∈ members, (read fuel).Takes (member.chars level) member.bySymbols := by
    intro member isMember
    have smaller := List.sizeOf_lt_of_mem isMember
    exact (readsBack member isMember).takes (by omega) level
  have shorter : members.length < fuel := by
    have := length_lt_sizeOf members
    omega
  have closes : isClosing ']' = true :=
    rfl
  have taken :=
    items_joined closes (fun member isMember => starts member isMember level) takes shorter
      (')' :: rest)
  rw [chars_union, List.append_assoc, List.append_assoc]
  refine (read_spelling (by decide) _ _).trans ?_
  rw [readInside, List.cons_append, List.singleton_append, closed_of_taken taken, bySymbols,
    allBySymbols_eq_map]
  rfl

theorem readsBack_enumeration
    (values : List String) :
    (Expr.enumeration values).ReadsBack := by
  refine readsBack_of_succ fun fuel level rest enough ends => ?_
  rw [enumeration.sizeOf_spec] at enough
  have shorter : values.length < fuel := by
    have := length_lt_sizeOf values
    omega
  have closes : isClosing ']' = true :=
    rfl
  have taken :=
    items_joined closes (fun text _ => startsItem_quoted text) (fun text _ => takes_quoted text)
      shorter (')' :: rest)
  rw [chars_enumeration, List.append_assoc, List.append_assoc]
  refine (read_spelling (by decide) _ _).trans ?_
  rw [readInside, List.cons_append, List.singleton_append, closed_of_taken taken, List.map_id']
  rfl

/-- The line of a field is read back up to the comma at its end. -/
theorem ReadsBack.takes_field
    {field : String × Expr}
    (readsBack : field.2.ReadsBack)
    {fuel : Nat}
    (enough : sizeOf field.2 < fuel)
    (level : Int) :
    (readField (read fuel)).Takes (fieldChars level field) (field.1, field.2.bySymbols) := by
  intro rest _
  have ends : EndsItem (',' :: rest) := by
    rintro char ⟨⟩
    exact .inl rfl
  have taken := readsBack.takes enough (level + 1) _ ends
  rw [readField, fieldChars, List.append_assoc, List.cons_append, List.cons_append,
    List.append_assoc, key_append, Option.bind_some]
  exact closed_of_taken taken _

theorem startsItem_fieldChars
    (level : Int)
    (field : String × Expr) :
    StartsItem (fieldChars level field) :=
  (startsItem_objectKey field.1).append _

/-- The blanks and line feeds of the layout of an object only separate its fields. -/
theorem isSeparator_of_mem_lead
    {level : Int}
    {char : Char}
    (member : char ∈ '\n' :: (indentation level).toList) :
    isSeparator char = true := by
  rw [indentation, String.toList_ofList, List.mem_cons, List.mem_replicate] at member
  rcases member with rfl | ⟨-, rfl⟩ <;> rfl

theorem followed_strictness
    (fields : List (String × Expr))
    (strict : Bool)
    (rest : List Char) :
    followed (.object fields false) (strictness strict ++ rest) =
      followed (.object fields strict) rest := by
  cases strict with
  | false =>
      rfl
  | true =>
      exact followed_spelling .strict (.object fields false) rest

theorem readsBack_object
    {fields : List (String × Expr)}
    (readsBack : ∀ field ∈ fields, field.2.ReadsBack)
    (strict : Bool) :
    (Expr.object fields strict).ReadsBack := by
  refine readsBack_of_succ fun fuel level rest enough ends => ?_
  rw [object.sizeOf_spec] at enough
  have takes :
      ∀ field ∈ fields,
        (readField (read fuel)).Takes (fieldChars level field)
          (field.1, field.2.bySymbols) := by
    intro field member
    have smaller := List.sizeOf_lt_of_mem member
    rw [Prod.mk.sizeOf_spec] at smaller
    exact (readsBack field member).takes_field (by omega) level
  have shorter : fields.length < fuel := by
    have := length_lt_sizeOf fields
    omega
  have closes : isClosing '\x7d' = true :=
    rfl
  have leads :
      '\n' :: (indentation (level + 1)).toList ≠ [] ∧
        ∀ char ∈ '\n' :: (indentation (level + 1)).toList, isSeparator char = true :=
    ⟨List.cons_ne_nil _ _, fun _ => isSeparator_of_mem_lead⟩
  have trails : ∀ char ∈ closingLead level (!fields.isEmpty), isSeparator char = true := by
    unfold closingLead
    split
    · exact fun _ => isSeparator_of_mem_lead
    · exact List.forall_mem_nil _
  have taken :=
    items_flatMap closes leads trails (fun field _ => startsItem_fieldChars level field) takes
      shorter (')' :: (strictness strict ++ rest))
  rw [chars_object, List.append_assoc, List.append_assoc, List.append_assoc]
  refine (read_spelling (by decide) _ _).trans ?_
  rw [readInside, List.cons_append, List.cons_append, closed_of_taken taken, bySymbols,
    fieldsBySymbols_eq_map]
  exact congrArg some (followed_strictness _ strict rest)

theorem Legible.readsBack
    {expr : Expr}
    (legible : expr.Legible) :
    expr.ReadsBack := by
  induction legible with
  | primitive listed =>
      exact readsBack_primitive listed
  | json =>
      exact readsBack_json
  | reference valid noJson =>
      exact readsBack_reference valid noJson
  | @deferred inner hostType legible valid inductionHypothesis =>
      cases hostType with
      | none =>
          exact inductionHypothesis.deferred
      | some name =>
          exact inductionHypothesis.annotated (valid name rfl)
  | array legible inductionHypothesis =>
      exact inductionHypothesis.method .array (fun level => chars_array level _) rfl (by simp)
  | optional legible inductionHypothesis =>
      exact inductionHypothesis.method .optional (fun level => chars_optional level _) rfl
        (by simp)
  | nullable legible inductionHypothesis =>
      exact inductionHypothesis.method .nullable (fun level => chars_nullable level _) rfl
        (by simp)
  | union legible inductionHypothesis =>
      exact readsBack_union inductionHypothesis fun member isMember =>
        (legible member isMember).startsItem
  | object legible strict inductionHypothesis =>
      exact readsBack_object inductionHypothesis strict
  | enumeration values =>
      exact readsBack_enumeration values

/-- Nothing but the symbols of its references is left of a reference in the text of an
expression. -/
theorem Legible.bySymbols_eq_of_chars_eq
    {first second : Expr}
    (firstLegible : first.Legible)
    (secondLegible : second.Legible)
    {level : Int}
    (same : first.chars level = second.chars level) :
    first.bySymbols = second.bySymbols := by
  have nothing : EndsItem [] := by
    rintro char ⟨⟩
  have firstTaken :=
    firstLegible.readsBack.takes (Nat.lt_succ_of_le (Nat.le_add_right _ (sizeOf second)))
      level [] nothing
  have secondTaken :=
    secondLegible.readsBack.takes (Nat.lt_succ_of_le (Nat.le_add_left _ (sizeOf first)))
      level [] nothing
  rw [same, secondTaken] at firstTaken
  exact (Prod.mk.inj (Option.some.inj firstTaken)).1.symm

end Expr

/-! ## What a text depends on -/

namespace Piece

/-- The piece with the symbol that it mentions as the name of a reference. -/
def bySymbol : Piece → Piece
  | .symbol target => .symbol target.bySymbol
  | .plain text => .plain text
  | .json => .json
  | .hostType name => .hostType name

/-- The text of a piece whose reference has a symbol as its name. -/
def shown : Piece → String
  | .symbol target => target.name
  | .plain text => text
  | .json => jsonSymbol
  | .hostType name => "Prisma." ++ name

theorem shown_bySymbol
    (piece : Piece) :
    piece.bySymbol.shown = piece.text := by
  cases piece <;> rfl

end Piece

namespace Expr

theorem map_intercalate
    (replace : α → β)
    (separator : List α)
    (parts : List (List α)) :
    (separator.intercalate parts).map replace =
      (separator.map replace).intercalate (parts.map (·.map replace)) := by
  induction parts with
  | nil =>
      simp
  | cons first rest inductionHypothesis =>
      cases rest with
      | nil =>
          simp
      | cons second rest =>
          rw [List.intercalate_cons_cons, List.map_append, List.map_append, inductionHypothesis]
          simp [List.intercalate_cons_cons]

theorem map_bySymbol_deferredPieces
    (hostType : Option String) :
    (deferredPieces hostType).map Piece.bySymbol = deferredPieces hostType := by
  cases hostType with
  | none =>
      rfl
  | some name =>
      by_cases unnamed : name.isEmpty <;> simp [deferredPieces, unnamed, Piece.bySymbol]

theorem map_bySymbol_objectPieces
    (strict : Bool)
    (level : Int)
    (lines : List (List Piece)) :
    (objectPieces strict level lines).map Piece.bySymbol =
      objectPieces strict level (lines.map (·.map Piece.bySymbol)) := by
  cases lines with
  | nil =>
      rfl
  | cons first rest =>
      simp [objectPieces, map_intercalate, Piece.bySymbol]

/-- Replacing references by their symbols replaces them where the text mentions them, and leaves
the rest of the text as it is. -/
theorem Legible.pieces_bySymbols
    {expr : Expr}
    (legible : expr.Legible)
    (level : Int) :
    expr.bySymbols.pieces level = (expr.pieces level).map Piece.bySymbol := by
  induction legible generalizing level with
  | primitive _ | json | reference _ _ | enumeration _ =>
      rfl
  | deferred legible valid inductionHypothesis =>
      rw [bySymbols, pieces, inductionHypothesis, pieces, List.map_append, List.map_append,
        map_bySymbol_deferredPieces]
      rfl
  | array legible inductionHypothesis
  | optional legible inductionHypothesis
  | nullable legible inductionHypothesis =>
      rw [bySymbols, pieces, inductionHypothesis, pieces, List.map_append]
      rfl
  | @union members legible inductionHypothesis =>
      have alike :
          (members.map bySymbols).map (pieces level) =
            (members.map (pieces level)).map (·.map Piece.bySymbol) := by
        rw [List.map_map, List.map_map]
        exact List.map_congr_left fun member isMember => inductionHypothesis member isMember level
      rw [bySymbols, allBySymbols_eq_map, pieces, pieces, piecesAll_eq_map, piecesAll_eq_map,
        alike, List.map_append, List.map_append, map_intercalate]
      rfl
  | @object fields legible strict inductionHypothesis =>
      rw [bySymbols, fieldsBySymbols_eq_map, pieces, pieces, piecesFields_eq_map,
        piecesFields_eq_map, map_bySymbol_objectPieces, List.map_map, List.map_map]
      congr 1
      refine List.map_congr_left fun field member => ?_
      simp [inductionHypothesis field member, Piece.bySymbol]

/-- The text of an expression is that of its pieces with symbols as names. -/
theorem Legible.joinPieces_eq
    {expr : Expr}
    (legible : expr.Legible)
    (level : Int) :
    joinPieces (expr.pieces level) =
      String.join ((expr.bySymbols.pieces level).map Piece.shown) := by
  rw [legible.pieces_bySymbols, List.map_map, joinPieces]
  exact congrArg String.join (List.map_congr_left fun piece _ => piece.shown_bySymbol.symm)

theorem Legible.renders
    {expr : Expr}
    (legible : expr.Legible) :
    expr.Renders := by
  induction legible with
  | primitive listed =>
      exact renders_primitive _
  | json =>
      exact renders_json
  | reference valid noJson =>
      exact renders_reference _
  | deferred legible valid inductionHypothesis =>
      exact renders_deferred.mpr inductionHypothesis
  | array legible inductionHypothesis =>
      exact renders_array.mpr inductionHypothesis
  | optional legible inductionHypothesis =>
      exact renders_optional.mpr inductionHypothesis
  | nullable legible inductionHypothesis =>
      exact renders_nullable.mpr inductionHypothesis
  | union legible inductionHypothesis =>
      exact renders_union inductionHypothesis
  | object legible strict inductionHypothesis =>
      exact renders_object inductionHypothesis strict
  | enumeration values =>
      exact renders_enumeration values

theorem Legible.written
    {expr : Expr}
    (legible : expr.Legible) :
    expr.Written := by
  obtain ⟨text, isText⟩ := legible.renders 0
  exact written_of_render isText

/-- Two expressions have the same text at a level exactly if they are equal once each of their
references is replaced by its symbol. -/
theorem exists_text_iff_bySymbols_eq
    {first second : Expr}
    (firstLegible : first.Legible)
    (secondLegible : second.Legible)
    (level : Int) :
    (∃ text, first.render level = .ok text ∧ second.render level = .ok text) ↔
      first.bySymbols = second.bySymbols := by
  have firstText := firstLegible.written.render_eq_joinPieces level
  have secondText := secondLegible.written.render_eq_joinPieces level
  constructor
  · rintro ⟨text, isFirst, isSecond⟩
    have same : joinPieces (first.pieces level) = joinPieces (second.pieces level) :=
      Except.ok.inj (firstText.symm.trans (isFirst.trans (isSecond.symm.trans secondText)))
    exact firstLegible.bySymbols_eq_of_chars_eq secondLegible (congrArg String.toList same)
  · intro same
    refine ⟨_, firstText, ?_⟩
    rw [secondText, firstLegible.joinPieces_eq, secondLegible.joinPieces_eq, same]

/-- An object with a field of each form: one below a deferred binding, one behind wrappers, and an
enumeration whose values have to be escaped. -/
def sampleObject (target : Reference) : Expr :=
  .object
    [("user", .deferred (.union [.reference target, .primitive "z.number().int()", .union []])
      (some "UserArgs")),
      ("two words", .optional (.array (.object [] false))),
      ("mode", .nullable (.enumeration ["a\", \"b", "\x01\\"]))]
    true

theorem legible_sampleObject
    (target : Reference)
    (valid : Text.isIdentifier target.symbol = true)
    (noJson : target.symbol ≠ jsonSymbol) :
    (sampleObject target).Legible := by
  have members :
      ∀ member ∈ [.reference target, .primitive "z.number().int()", .union []],
        Legible member := by
    simp only [List.forall_mem_cons]
    exact ⟨.reference valid noJson, .primitive (by decide +kernel), .union (List.forall_mem_nil _),
      List.forall_mem_nil _⟩
  have hostType : ∀ name ∈ some "UserArgs", Text.isIdentifier name = true := by
    rintro name ⟨⟩
    decide +kernel
  refine .object ?_ true
  simp only [List.forall_mem_cons]
  exact ⟨.deferred (.union members) hostType,
    .optional (.array (.object (List.forall_mem_nil _) false)), .nullable (.enumeration _),
    List.forall_mem_nil _⟩

/-- A composite and an operation that share a symbol give one text. -/
theorem exists_text_iff_bySymbols_eq_sampleObject :
    (sampleObject ⟨"User", .object⟩).Legible ∧
      (sampleObject ⟨"UserObject", .operation⟩).Legible ∧
      ((∃ text,
          (sampleObject ⟨"User", .object⟩).render 1 = .ok text ∧
            (sampleObject ⟨"UserObject", .operation⟩).render 1 = .ok text) ↔
        (sampleObject ⟨"User", .object⟩).bySymbols =
          (sampleObject ⟨"UserObject", .operation⟩).bySymbols) :=
  have first := legible_sampleObject ⟨"User", .object⟩ (by decide +kernel) (by decide +kernel)
  have second :=
    legible_sampleObject ⟨"UserObject", .operation⟩ (by decide +kernel) (by decide +kernel)
  ⟨first, second, exists_text_iff_bySymbols_eq first second 1⟩

end Expr

end ZodSchemas
