namespace ZodSchemas.Text

/-!
# Texts and code points

A text is a sequence of code points.  Besides characters it may have halves of
surrogate pairs, which an escape in a document can spell and which are no
characters.  In a string each half is kept as a private-use character, its
stand-in.  A mark is kept before a character of the text that is a stand-in or
the mark itself, so that every text has a string of its own.
-/

/-- Whether a code point is the first half of a pair. -/
def isHighHalf (code : Nat) : Bool :=
  0xD800 ≤ code && code ≤ 0xDBFF

/-- Whether a code point is the second half of a pair. -/
def isLowHalf (code : Nat) : Bool :=
  0xDC00 ≤ code && code ≤ 0xDFFF

/-- Whether a code point is a half of a pair. -/
def isHalf (code : Nat) : Bool :=
  isHighHalf code || isLowHalf code

/-- How far the stand-in of a half lies behind it. -/
def standInOffset : Nat := 0x100000

/-- The mark before a character that stands for itself. -/
def selfMark : Char := Char.ofNat 0x10D7FF

/-- Whether a character has to be marked where it stands for itself: a stand-in, or the mark. -/
def isReserved (char : Char) : Bool :=
  char == selfMark || isHalf (char.toNat - standInOffset)

def kept (code : Nat) : List Char :=
  if isHalf code then [Char.ofNat (code + standInOffset)]
  else if isReserved (Char.ofNat code) then [selfMark, Char.ofNat code]
  else [Char.ofNat code]

def ofCodePoints (codes : List Nat) : String :=
  String.ofList (codes.flatMap kept)

/-- The text with characters, none of which is a half. -/
def ofChars (chars : List Char) : String :=
  ofCodePoints (chars.map Char.toNat)

/-- The code point that a character without a mark before it is kept for. -/
def codeOf (char : Char) : Nat :=
  if isHalf (char.toNat - standInOffset) then char.toNat - standInOffset else char.toNat

/-- The code points of characters as they are kept, behind the reversed ones read so far. -/
def codesBehind (read : List Nat) : List Char → List Nat
  | [] => read.reverse
  | [char] => (codeOf char :: read).reverse
  | char :: next :: rest =>
      if char = selfMark then codesBehind (next.toNat :: read) rest
      else codesBehind (codeOf char :: read) (next :: rest)

def codePoints (text : String) : List Nat :=
  codesBehind [] text.toList

def width (text : String) : Nat :=
  (codePoints text).length

/-- Whether a text has characters only. -/
def isWhole (text : String) : Bool :=
  !(codePoints text).any isHalf

/-- Whether code points do not come after other ones. -/
def areAtMost : List Nat → List Nat → Bool
  | [], _ => true
  | _ :: _, [] => false
  | code :: rest, other :: others =>
      if code = other then areAtMost rest others else code < other

/-- Whether a text does not come after another one in the order of code points. -/
def isAtMost (first second : String) : Bool :=
  areAtMost (codePoints first) (codePoints second)

def sorted (texts : List String) : List String :=
  texts.mergeSort isAtMost

/-- The text in which three replacement characters stand for each half. -/
def withoutHalves (text : String) : String :=
  ofCodePoints ((codePoints text).flatMap fun code =>
    if isHalf code then List.replicate 3 0xFFFD else [code])

end ZodSchemas.Text
