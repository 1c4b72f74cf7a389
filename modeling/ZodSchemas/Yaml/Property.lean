import ZodSchemas.Text.Utf8
import ZodSchemas.Yaml.Quoted
import ZodSchemas.Yaml.Token

namespace ZodSchemas.Yaml

/-!
# Directives, anchors and tags

The tokens that say something about a document or a node.  Each reader starts at
the indicator and answers the token and the place behind it.
-/

/-- A token and the place behind it. -/
abbrev Lexeme := Token × Cursor

/-- Demand that the next character is of a class. -/
def demand (accepts : Char → Bool) (cursor : Cursor) : Except Fault Unit :=
  if accepts cursor.peek then .ok () else .error .malformed

/-- Read a name that is not empty. -/
def readName (cursor : Cursor) : Except Fault (String × Cursor) :=
  match cursor.span isNameChar with
  | ([], _) => .error .malformed
  | (name, behind) => .ok (String.ofList name, behind)

/-- The most digits that a number of a version may have. -/
def versionDigitLimit : Nat := Json.digitLimit

def readVersionNumber (cursor : Cursor) : Except Fault (Nat × Cursor) :=
  match cursor.span isDigit with
  | ([], _) => .error .malformed
  | (digits, behind) =>
      if versionDigitLimit < digits.length then .error (.oversizedInteger digits.length)
      else .ok (digits.foldl (fun value digit => value * 10 + (digit.toNat - 48)) 0, behind)

/-- Read a version behind the name of its directive. -/
def readVersion (cursor : Cursor) : Except Fault Lexeme := do
  let (major, behind) ← readVersionNumber (cursor.skipWhile (· == ' '))
  demand (· == '.') behind
  let (_, behind) ← readVersionNumber behind.next
  demand isBlankOrEnd behind
  .ok (.version major, behind)

/-- Read a handle: a name between exclamation marks, or one mark before a blank. -/
def readHandle (cursor : Cursor) : Except Fault (String × Cursor) := do
  demand (· == '!') cursor
  if cursor.peekAt 1 = ' ' then
    .ok ("!", cursor.next)
  else
    let (name, behind) := cursor.next.span isNameChar
    demand (· == '!') behind
    .ok (String.ofList ('!' :: name ++ ['!']), behind.next)

def isTagChar (char : Char) : Bool :=
  isNameChar char || isOneOf ";/?:@&=+$,.!~*'()[]%" char

/-- Read escaped bytes, none where no escape stands. -/
def readEscapedBytes : (fuel : Nat) → Cursor → Except Fault (List UInt8 × Cursor)
  | 0, cursor => .ok ([], cursor)
  | fuel + 1, cursor =>
      if cursor.peek = '%' then
        match hexNumber? 2 cursor.next.rest with
        | some byte => do
            let (bytes, behind) ← readEscapedBytes fuel (cursor.next.skip 2)
            .ok (UInt8.ofNat byte :: bytes, behind)
        | none => .error .malformed
      else
        .ok ([], cursor)

def readTagPieces : (fuel : Nat) → Cursor → Except Fault (List Char × Cursor)
  | 0, cursor => .ok ([], cursor)
  | fuel + 1, cursor =>
      if cursor.peek = '%' then do
        let (bytes, behind) ← readEscapedBytes cursor.rest.length cursor
        match Text.decodeUtf8 bytes with
        | .ok chars => do
            let (others, last) ← readTagPieces fuel behind
            .ok (chars ++ others, last)
        | .error _ => .error .malformed
      else
        match cursor.span fun char => isTagChar char && char != '%' with
        | ([], _) => .ok ([], cursor)
        | (piece, behind) => do
            let (others, last) ← readTagPieces fuel behind
            .ok (piece ++ others, last)

/-- Read the text of a tag, which is not empty. -/
def readTagText (cursor : Cursor) : Except Fault (String × Cursor) :=
  if isTagChar cursor.peek then do
    let (chars, behind) ← readTagPieces (cursor.rest.length + 1) cursor
    .ok (String.ofList chars, behind)
  else
    .error .malformed

/-- Read a handle and what it stands for, behind the name of its directive. -/
def readHandleDirective (cursor : Cursor) : Except Fault Lexeme := do
  let (handle, behind) ← readHandle (cursor.skipWhile (· == ' '))
  demand (· == ' ') behind
  let (expansion, behind) ← readTagText (behind.skipWhile (· == ' '))
  demand isBlankOrEnd behind
  .ok (.handle handle expansion, behind)

def readDirectiveValue (name : String) (cursor : Cursor) : Except Fault Lexeme :=
  if name = "YAML" then readVersion cursor
  else if name = "TAG" then readHandleDirective cursor
  else .ok (.directive, cursor.skipWhile (!isBreakOrEnd ·))

def readDirective (cursor : Cursor) : Except Fault Lexeme := do
  let (name, behind) ← readName cursor.next
  demand isBlankOrEnd behind
  let (token, behind) ← readDirectiveValue name behind
  let last := behind.skipComment
  demand isBreakOrEnd last
  .ok (token, last.next)

/-- Read the name of an anchor or an alias. -/
def readAnchor (make : String → Token) (cursor : Cursor) : Except Fault Lexeme := do
  let (name, behind) ← readName cursor.next
  demand (fun char => isGap char || isOneOf "?:,]\x7d%@`" char) behind
  .ok (make name, behind)

/-- Whether an exclamation mark occurs before a blank or the end of the line. -/
def hasHandle (cursor : Cursor) : Bool :=
  (cursor.rest.takeWhile (!isBlankOrEnd ·)).contains '!'

/-- Read the handle and the text of a tag. -/
def readTagValue (cursor : Cursor) : Except Fault Lexeme :=
  if cursor.peekAt 1 = '<' then do
    let (text, behind) ← readTagText (cursor.skip 2)
    demand (· == '>') behind
    .ok (.tag none text, behind.next)
  else if isGap (cursor.peekAt 1) then
    .ok (.tag none "!", cursor.next)
  else do
    let (handle, behind) ← if hasHandle cursor.next then readHandle cursor else .ok ("!", cursor.next)
    let (text, behind) ← readTagText behind
    .ok (.tag (some handle) text, behind)

def readTag (cursor : Cursor) : Except Fault Lexeme := do
  let (token, behind) ← readTagValue cursor
  demand isBlankOrEnd behind
  .ok (token, behind)

end ZodSchemas.Yaml
