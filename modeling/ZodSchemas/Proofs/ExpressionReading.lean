import ZodSchemas.Assembly.Field
import ZodSchemas.Proofs.TextReading
import ZodSchemas.Proofs.WrittenText

namespace ZodSchemas

/-!
# Reading expressions back

The text of an expression is an opening and what it encloses, or a name, and
behind that the calls of methods.  The openings are prefix-free, and so are the
methods, so the front of a text shows which of them was written.  A name is read
as the shared validator for arbitrary JSON or as a reference with that name.
-/

namespace Expr

/-- What the text of an expression other than a name starts with. -/
inductive Opening where
  | call (code : String)
  | deferred
  | annotated
  | union
  | object
  | enumeration
deriving Repr, DecidableEq

/-- A call behind an expression. -/
inductive Method where
  | array
  | optional
  | nullable
  | wholeNumber
  | strict
deriving Repr, DecidableEq

namespace Opening

def spelling : Opening → String
  | .call code => code
  | .deferred => "z.lazy(() => "
  | .annotated => "z.lazy((): z.ZodType<Prisma."
  | .union => "z.union(["
  | .object => "z.object(\x7b"
  | .enumeration => "z.enum(["

/-- The primitive calls without a method behind them. -/
def calls : List String :=
  ["z.string()", "z.number()", "z.bigint()", "z.boolean()", "z.coerce.date()", "z.literal(true)",
    "z.instanceof(Uint8Array)"]

def all : List Opening :=
  calls.map .call ++ [.deferred, .annotated, .union, .object, .enumeration]

theorem isPrefixFree_all : TextReader.IsPrefixFree spelling all := by
  unfold TextReader.IsPrefixFree
  decide +kernel

theorem point_second :
    ∀ opening ∈ all, ['z', '.'] <+: opening.spelling.toList := by
  decide +kernel

end Opening

namespace Method

def spelling : Method → String
  | .array => ".array()"
  | .optional => ".optional()"
  | .nullable => ".nullable()"
  | .wholeNumber => ".int()"
  | .strict => ".strict()"

def all : List Method :=
  [.array, .optional, .nullable, .wholeNumber, .strict]

/-- The expression that a method makes of the one before it. -/
def apply : Method → Expr → Expr
  | .array, expr => .array expr
  | .optional, expr => .optional expr
  | .nullable, expr => .nullable expr
  | .wholeNumber, .primitive code => .primitive (code ++ ".int()")
  | .strict, .object fields _ => .object fields true
  | .wholeNumber, expr | .strict, expr => expr

theorem isPrefixFree_all : TextReader.IsPrefixFree spelling all := by
  unfold TextReader.IsPrefixFree
  decide +kernel

theorem mem_all (method : Method) : method ∈ all := by
  cases method <;> decide

theorem point_first
    (method : Method) :
    ['.'] <+: method.spelling.toList := by
  cases method <;> decide

end Method

/-- A primitive call is an opening, or the one with a method behind an opening. -/
theorem primitive_cases :
    ∀ code ∈ Assembly.primitiveCodes.map (·.2),
      .call code ∈ Opening.all ∨ code = "z.number()" ++ Method.wholeNumber.spelling := by
  decide +kernel

open TextReader

/-- What the methods at the front of a text make of an expression, and what follows them. -/
def followed (expr : Expr) (chars : List Char) : Expr × List Char :=
  match _taken : firstWord? Method.spelling Method.all chars with
  | some (method, rest) => followed (method.apply expr) rest
  | none => (expr, chars)
termination_by chars.length
decreasing_by
  obtain ⟨-, rfl⟩ := eq_append_of_firstWord? _taken
  obtain ⟨spelled, isSpelling⟩ := Method.point_first method
  rw [← isSpelling]
  simp only [List.length_append, List.length_cons]
  omega

theorem followed_spelling
    (method : Method)
    (expr : Expr)
    (rest : List Char) :
    followed expr (method.spelling.toList ++ rest) = followed (method.apply expr) rest := by
  have taken := Method.isPrefixFree_all.firstWord?_append method.mem_all rest
  rw [followed]
  split
  · rename_i other behind otherTaken
    cases taken.symm.trans otherTaken
    rfl
  · rename_i untaken
    cases taken.symm.trans untaken

/-- Behind the end of an item there is no method. -/
theorem followed_of_endsItem
    {rest : List Char}
    (ends : EndsItem rest)
    (expr : Expr) :
    followed expr rest = (expr, rest) := by
  have untaken : firstWord? Method.spelling Method.all rest = none := by
    refine firstWord?_eq_none fun method _ isPrefix => ?_
    obtain ⟨behind, rfl⟩ := (Method.point_first method).trans isPrefix
    exact absurd (ends '.' rfl) (by decide)
  rw [followed]
  split
  · rename_i taken
    cases untaken.symm.trans taken
  · rfl

/-- The expression that a name stands for. -/
def named (name : List Char) : Expr :=
  if name = jsonSymbol.toList then .json else .reference ⟨String.ofList name, .operation⟩

/-- A field on its line, up to the comma behind it. -/
def readField (value : TextReader Expr) : TextReader (String × Expr) :=
  fun chars => (key chars).bind fun name => closed (name.1, ·) value (name.2.drop 2)

/-- What stands behind an opening, up to the mark that belongs to it. -/
def readInside (inner : TextReader Expr) (fuel : Nat) : Opening → TextReader Expr
  | .call code, chars => some (.primitive code, chars)
  | .deferred, chars => closed (.deferred · none) inner chars
  | .annotated, chars =>
      let name := String.ofList (chars.takeWhile (· != '>'))
      closed (.deferred · (some name)) inner ((chars.dropWhile (· != '>')).drop 5)
  | .union, chars => closed .union (items ']' inner fuel) chars
  | .object, chars => closed (.object · false) (items '\x7d' (readField inner) fuel) chars
  | .enumeration, chars => closed .enumeration (items ']' quoted fuel) chars

/-- Read an expression without the methods behind it. -/
def readCore (inner : TextReader Expr) (fuel : Nat) : TextReader Expr :=
  fun chars =>
    match firstWord? Opening.spelling Opening.all chars with
    | some (opening, rest) => readInside inner fuel opening rest
    | none =>
        some (named (chars.takeWhile Text.isIdentifierPart),
          chars.dropWhile Text.isIdentifierPart)

/-- Read an expression that is nested less deeply, and has fewer parts, than there is fuel. -/
def read : Nat → TextReader Expr
  | 0, _ => none
  | fuel + 1, chars =>
      (readCore (read fuel) fuel chars).map fun taken => followed taken.1 taken.2

theorem read_spelling
    {opening : Opening}
    (member : opening ∈ Opening.all)
    (fuel : Nat)
    (rest : List Char) :
    read (fuel + 1) (opening.spelling.toList ++ rest) =
      (readInside (read fuel) fuel opening rest).map fun taken => followed taken.1 taken.2 := by
  rw [read, readCore, Opening.isPrefixFree_all.firstWord?_append member]

/-- A name of at least two characters is read as what it stands for. -/
theorem read_name
    {name rest : List Char}
    (continues : ∀ char ∈ name, Text.isIdentifierPart char = true)
    (long : 2 ≤ name.length)
    (ends : EndsName rest)
    (fuel : Nat) :
    read (fuel + 1) (name ++ rest) = some (followed (named name) rest) := by
  have unopened : firstWord? Opening.spelling Opening.all (name ++ rest) = none := by
    refine firstWord?_eq_none fun opening member isPrefix => ?_
    have front : ['z', '.'] <+: name :=
      List.prefix_of_prefix_length_le ((Opening.point_second opening member).trans isPrefix)
        (List.prefix_append name rest) long
    exact absurd (continues '.' (front.subset (by simp))) (by decide)
  obtain ⟨isName, isRest⟩ := takeWhile_dropWhile_append continues ends
  rw [read, readCore, unopened]
  simp only [isName, isRest, Option.map_some]

/-! ## Texts as characters -/

/-- The characters of the text of an expression. -/
def chars (level : Int) (expr : Expr) : List Char :=
  (joinPieces (expr.pieces level)).toList

section Chars

variable (level : Int)

theorem chars_reference
    (target : Reference) :
    (Expr.reference target).chars level = target.symbol.toList := by
  simp [chars, pieces, Piece.text]

theorem chars_primitive
    (code : String) :
    (Expr.primitive code).chars level = code.toList := by
  simp [chars, pieces, Piece.text]

theorem chars_json : Expr.json.chars level = jsonSymbol.toList := by
  simp [chars, pieces, Piece.text]

theorem chars_deferred
    (inner : Expr) :
    (Expr.deferred inner none).chars level =
      Opening.deferred.spelling.toList ++ (inner.chars level ++ [')']) := by
  simp [chars, pieces, deferredPieces, Piece.text, Opening.spelling]

theorem chars_annotated
    (inner : Expr)
    {name : String}
    (isNamed : name ≠ "") :
    (Expr.deferred inner (some name)).chars level =
      Opening.annotated.spelling.toList ++
        (name.toList ++ ("> => ".toList ++ (inner.chars level ++ [')']))) := by
  simp [chars, pieces, deferredPieces, Piece.text, Opening.spelling, isNamed]

theorem chars_array
    (inner : Expr) :
    inner.array.chars level = inner.chars level ++ Method.array.spelling.toList := by
  simp [chars, pieces, Piece.text, Method.spelling]

theorem chars_optional
    (inner : Expr) :
    inner.optional.chars level = inner.chars level ++ Method.optional.spelling.toList := by
  simp [chars, pieces, Piece.text, Method.spelling]

theorem chars_nullable
    (inner : Expr) :
    inner.nullable.chars level = inner.chars level ++ Method.nullable.spelling.toList := by
  simp [chars, pieces, Piece.text, Method.spelling]

theorem piecesAll_eq_map
    (members : List Expr) :
    piecesAll level members = members.map (pieces level) := by
  induction members with
  | nil =>
      rfl
  | cons first rest inductionHypothesis =>
      rw [piecesAll, inductionHypothesis, List.map_cons]

theorem piecesFields_eq_map
    (fields : List (String × Expr)) :
    piecesFields level fields = fields.map fun field =>
      [.plain (indentation (level + 1) ++ Text.objectKey field.1 ++ ": ")]
        ++ pieces (level + 1) field.2 ++ [.plain ","] := by
  induction fields with
  | nil =>
      rfl
  | cons first rest inductionHypothesis =>
      rw [piecesFields, inductionHypothesis, List.map_cons]

theorem chars_union
    (members : List Expr) :
    (Expr.union members).chars level =
      Opening.union.spelling.toList ++
        ((", ".intercalate (members.map fun member => joinPieces (member.pieces level))).toList ++
          [']', ')']) := by
  simp [chars, pieces, joinPieces_intercalate, piecesAll_eq_map, Piece.text, Opening.spelling,
    Function.comp_def]

theorem chars_enumeration
    (values : List String) :
    (Expr.enumeration values).chars level =
      Opening.enumeration.spelling.toList ++
        ((", ".intercalate (values.map Text.quoted)).toList ++ [']', ')']) := by
  simp [chars, pieces, enumerationText, Piece.text, Opening.spelling]

/-- The characters of the line of a field, behind its indentation. -/
def fieldChars (field : String × Expr) : List Char :=
  (Text.objectKey field.1).toList ++ ':' :: ' ' :: (field.2.chars (level + 1) ++ [','])

/-- What stands before the closing mark of an object, with fields or without. -/
def closingLead (hasFields : Bool) : List Char :=
  if hasFields then '\n' :: (indentation level).toList else []

/-- The method that marks an object as strict. -/
def strictness (strict : Bool) : List Char :=
  if strict then Method.strict.spelling.toList else []

theorem toList_objectText
    (strict : Bool)
    (lines : List String) :
    (objectText strict level lines).toList =
      Opening.object.spelling.toList ++
        (lines.flatMap (fun line => '\n' :: line.toList) ++
          (closingLead level (!lines.isEmpty) ++ '\x7d' :: ')' :: strictness strict)) := by
  cases lines with
  | nil =>
      cases strict <;> simp [objectText, closingLead, strictness, Opening.spelling,
        Method.spelling]
  | cons first others =>
      cases strict <;> simp [objectText, Text.toList_intercalate_cons, closingLead, strictness,
        Opening.spelling, Method.spelling, -String.toList_intercalate]

theorem chars_object
    (fields : List (String × Expr))
    (strict : Bool) :
    (Expr.object fields strict).chars level =
      Opening.object.spelling.toList ++
        (fields.flatMap (fun field =>
            ('\n' :: (indentation (level + 1)).toList) ++ fieldChars level field) ++
          (closingLead level (!fields.isEmpty) ++ '\x7d' :: ')' :: strictness strict)) := by
  rw [chars, pieces, joinPieces_objectPieces, toList_objectText, piecesFields_eq_map]
  simp [List.flatMap_map, fieldChars, chars, Piece.text]

end Chars

end Expr

end ZodSchemas
