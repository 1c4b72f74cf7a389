import ZodSchemas.Text.CharClass
import ZodSchemas.Text.CaseTable

namespace ZodSchemas.Text

/-!
# Case conversion

Upper, title and lower case of single characters, and the two conversions of
whole names that are built from them: raising the first character only, and
title case, where every cased character that follows a cased one is lowered.
A capital sigma at the end of a word is lowered to its final form.
-/

/-- The first mapping of a list of runs that applies to a code point. -/
def shiftBy? (shifts : List Shift) (code : Nat) : Option Nat :=
  shifts.findSome? (·.shifted? code)

/-- The characters a table of expansions lists for a code point. -/
def expansion? (expansions : List (Nat × List Nat)) (code : Nat) : Option (List Char) :=
  (expansions.lookup code).map (·.map Char.ofNat)

def upper (char : Char) : List Char :=
  match expansion? upperExpansions char.toNat with
  | some expanded => expanded
  | none =>
      match shiftBy? upperShifts char.toNat with
      | some code => [Char.ofNat code]
      | none => [char]

def title (char : Char) : List Char :=
  (expansion? titleExceptions char.toNat).getD (upper char)

/-- The lower case form of a character outside any word. -/
def lower (char : Char) : List Char :=
  match expansion? lowerExpansions char.toNat with
  | some expanded => expanded
  | none =>
      match shiftBy? lowerShifts char.toNat with
      | some code => [Char.ofNat code]
      | none => [char]

/-- Whether a character takes part in case distinctions. -/
def isCased (char : Char) : Bool :=
  inRanges casedRanges char.toNat

/-- Whether a character is passed over when the surroundings of a sigma are inspected. -/
def isCaseIgnorable (char : Char) : Bool :=
  inRanges caseIgnorableRanges char.toNat

/-- Whether the first character that is not passed over is a cased one. -/
def meetsCased (chars : List Char) : Bool :=
  match chars.dropWhile isCaseIgnorable with
  | [] => false
  | char :: _ => isCased char

/-- The lower case form of a character between the reversed text before it and the text after it. -/
def lowerWithin (before : List Char) (char : Char) (after : List Char) : List Char :=
  if char.toNat = 0x3A3 then
    if meetsCased before && !meetsCased after then [Char.ofNat 0x3C2] else [Char.ofNat 0x3C3]
  else
    lower char

/-- The characters of a text in title case, given the reversed text before them. -/
def titleFrom (before : List Char) : List Char → List Char
  | [] => []
  | char :: rest =>
      let follows := match before with
        | [] => false
        | previous :: _ => isCased previous
      (if follows then lowerWithin before char rest else title char)
        ++ titleFrom (char :: before) rest

/-- The characters of a text in lower case, given the reversed text before them. -/
def lowerFrom (before : List Char) : List Char → List Char
  | [] => []
  | char :: rest => lowerWithin before char rest ++ lowerFrom (char :: before) rest

def lowerCase (text : String) : String :=
  String.ofList (lowerFrom [] text.toList)

def titleCase (text : String) : String :=
  String.ofList (titleFrom [] text.toList)

/-- A name with its first character in upper case and the rest untouched. -/
def capitalizeFirst (name : String) : String :=
  match name.toList with
  | [] => ""
  | first :: rest => String.ofList (upper first ++ rest)

end ZodSchemas.Text
