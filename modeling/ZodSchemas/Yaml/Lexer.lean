import ZodSchemas.Yaml.Block
import ZodSchemas.Yaml.Plain
import ZodSchemas.Yaml.Property

namespace ZodSchemas.Yaml

/-!
# From text to tokens

Outside flow collections indentation opens and closes collections.  A token that
may be a key without an indicator is remembered for each level of flow; a colon
behind it on the same line, at most 1024 characters further, makes it one, and
the token for the key is then put before it.  Until then a candidate is open, and
so are all tokens behind it: a fault that is met before they are settled hides
them, so it counts before any fault in the order of these tokens.
-/

/-- A token that a colon may make a key. -/
structure Candidate where
  place : Nat
  required : Bool
  index : Nat
  line : Nat
  column : Nat
deriving Repr

/-- The state between two tokens; the tokens are held in reverse. -/
structure Lexer where
  cursor : Cursor
  tokens : List Token
  count : Nat
  depth : Int
  indent : Int
  outer : List Int
  allowsKey : Bool
  candidates : List (Int × Candidate)

/-- How far behind a key its colon may stand. -/
def keySpan : Nat := 1024

/-- Put a value into a list behind a number of items. -/
def insertAfter (count : Nat) (value : α) (items : List α) : List α :=
  items.take count ++ value :: items.drop count

namespace Lexer

/-- The state at the start of a text. -/
def start (chars : List Char) : Lexer :=
  ⟨.start chars, [], 0, 0, -1, [], true, []⟩

/-- Whether the place is inside a flow collection. -/
def inFlow (lexer : Lexer) : Bool :=
  lexer.depth != 0

def push (token : Token) (lexer : Lexer) : Lexer :=
  { lexer with tokens := token :: lexer.tokens, count := lexer.count + 1 }

/-- Add a token and go to the place behind it. -/
def take (lexeme : Lexeme) (lexer : Lexer) : Lexer :=
  { lexer.push lexeme.1 with cursor := lexeme.2 }

/-- Add a token of one character. -/
def takeMark (token : Token) (lexer : Lexer) : Lexer :=
  lexer.take (token, lexer.cursor.next)

/-- Put a token at the place of an earlier one. -/
def insert (place : Nat) (token : Token) (lexer : Lexer) : Lexer :=
  { lexer with
    tokens := insertAfter (lexer.count - place) token lexer.tokens
    count := lexer.count + 1 }

/-- Allow or forbid that the next token is a key. -/
def allowKey (allowed : Bool) (lexer : Lexer) : Lexer :=
  { lexer with allowsKey := allowed }

/-- Whether a candidate is too far behind to become a key. -/
def isStale (cursor : Cursor) (candidate : Candidate) : Bool :=
  candidate.line != cursor.line || keySpan < cursor.index - candidate.index

/-- Drop the candidates that are too far behind; none of them may be required. -/
def dropStale (lexer : Lexer) : Except Fault Lexer :=
  let (stale, kept) := lexer.candidates.partition fun entry => isStale lexer.cursor entry.2
  if stale.any (·.2.required) then .error .malformed
  else .ok { lexer with candidates := kept }

/-- Drop the candidate of the present level of flow, which may not be required. -/
def dropCandidate (lexer : Lexer) : Except Fault Lexer :=
  let (dropped, kept) := lexer.candidates.partition fun entry => entry.1 == lexer.depth
  if dropped.any (·.2.required) then .error .malformed
  else .ok { lexer with candidates := kept }

/-- Remember the next token as a candidate, where a key is allowed. -/
def remember (lexer : Lexer) : Except Fault Lexer :=
  if !lexer.allowsKey then .ok lexer
  else do
    let cleared ← lexer.dropCandidate
    let required := !lexer.inFlow && lexer.indent == lexer.cursor.column
    let candidate : Candidate :=
      ⟨lexer.count, required, lexer.cursor.index, lexer.cursor.line, lexer.cursor.column⟩
    .ok { cleared with candidates := (lexer.depth, candidate) :: cleared.candidates }

/-- Close the collections that are indented further than a column. -/
def closeTo (column : Int) : (fuel : Nat) → Lexer → Lexer
  | 0, lexer => lexer
  | fuel + 1, lexer =>
      if column < lexer.indent then
        closeTo column fuel
          { lexer.push .blockEnd with
            indent := lexer.outer.headD (-1)
            outer := lexer.outer.tail }
      else
        lexer

/-- Close the collections that are indented further than a column, outside flow collections. -/
def unwind (column : Int) (lexer : Lexer) : Lexer :=
  if lexer.inFlow then lexer else lexer.closeTo column (lexer.outer.length + 1)

/-- Whether a column is indented further than the present collection. -/
def opensAt (lexer : Lexer) (column : Nat) : Bool :=
  lexer.indent < column

/-- Enter a collection indented to a column. -/
def enter (column : Nat) (lexer : Lexer) : Lexer :=
  { lexer with indent := column, outer := lexer.indent :: lexer.outer }

/-- Go behind blanks, comments and line breaks; a line break allows a key outside flow
collections. -/
def skipToToken : (fuel : Nat) → Lexer → Lexer
  | 0, lexer => lexer
  | fuel + 1, lexer =>
      let behind := lexer.cursor.skipComment
      if isBreak behind.peek then
        skipToToken fuel
          { lexer with cursor := behind.next, allowsKey := lexer.allowsKey || !lexer.inFlow }
      else
        { lexer with cursor := behind }

/-- Go behind a byte order mark at the start of the text. -/
def skipMark (lexer : Lexer) : Lexer :=
  if lexer.cursor.index = 0 ∧ lexer.cursor.peek = '\ufeff' then
    { lexer with cursor := lexer.cursor.next }
  else
    lexer

/-- End the document: close everything and forget the candidates. -/
def endDocument (lexer : Lexer) : Except Fault Lexer := do
  let cleared ← (lexer.unwind (-1)).dropCandidate
  .ok (cleared.allowKey false)

/-- Add the token of a document separator. -/
def takeSeparator (token : Token) (lexer : Lexer) : Except Fault Lexer := do
  let ended ← lexer.endDocument
  .ok (ended.take (token, ended.cursor.skip 3))

def openFlow (token : Token) (lexer : Lexer) : Except Fault Lexer := do
  let remembered ← lexer.remember
  .ok (({ remembered with depth := lexer.depth + 1 }.allowKey true).takeMark token)

def closeFlow (token : Token) (lexer : Lexer) : Except Fault Lexer := do
  let cleared ← lexer.dropCandidate
  .ok (({ cleared with depth := lexer.depth - 1 }.allowKey false).takeMark token)

/-- Add the token between the entries of a flow collection. -/
def takeFlowEntry (lexer : Lexer) : Except Fault Lexer := do
  let cleared ← lexer.dropCandidate
  .ok ((cleared.allowKey true).takeMark .flowEntry)

/-- Open a block collection at the present column, unless one is open there. -/
def openBlock (token : Token) (lexer : Lexer) : Lexer :=
  if lexer.opensAt lexer.cursor.column then (lexer.push token).enter lexer.cursor.column
  else lexer

/-- Open a block collection outside flow collections, where an entry may start. -/
def startEntry (token : Token) (lexer : Lexer) : Except Fault Lexer :=
  if lexer.inFlow then .ok lexer
  else if lexer.allowsKey then .ok (lexer.openBlock token)
  else .error .malformed

/-- Add the token before an entry of a block sequence. -/
def takeBlockEntry (lexer : Lexer) : Except Fault Lexer := do
  let started ← lexer.startEntry .blockSequenceStart
  let cleared ← (started.allowKey true).dropCandidate
  .ok (cleared.takeMark .blockEntry)

/-- Add the token of a key or a value that is set apart by its indicator. -/
def takeIndicated (token : Token) (lexer : Lexer) : Except Fault Lexer := do
  let started ← lexer.startEntry .blockMappingStart
  let cleared ← (started.allowKey !lexer.inFlow).dropCandidate
  .ok (cleared.takeMark token)

/-- Make a candidate a key, and open a block mapping at its column unless one is open there. -/
def makeKey (candidate : Candidate) (lexer : Lexer) : Lexer :=
  let marked := lexer.insert candidate.place .key
  if !lexer.inFlow && lexer.opensAt candidate.column then
    (marked.insert candidate.place .blockMappingStart).enter candidate.column
  else
    marked

/-- Add the token of a value. -/
def takeValue (lexer : Lexer) : Except Fault Lexer :=
  match lexer.candidates.lookup lexer.depth with
  | some candidate =>
      let others := lexer.candidates.filter fun entry => entry.1 != lexer.depth
      .ok ((({ lexer with candidates := others }.makeKey candidate).allowKey false).takeMark .value)
  | none => lexer.takeIndicated .value

/-- Add a token that may be a key. -/
def takeNode (read : Cursor → Except Fault Lexeme) (lexer : Lexer) : Except Fault Lexer := do
  let remembered ← lexer.remember
  let lexeme ← read lexer.cursor
  .ok ((remembered.allowKey false).take lexeme)

/-- Add a block scalar. -/
def takeBlock (lexer : Lexer) : Except Fault Lexer := do
  let cleared ← (lexer.allowKey true).dropCandidate
  let (chars, behind) ← blockText lexer.indent lexer.cursor
  .ok (cleared.take (.scalar (Text.ofChars chars) false, behind))

def readQuoted (cursor : Cursor) : Except Fault Lexeme := do
  let (text, behind) ← quotedText cursor
  .ok (.scalar text false, behind)

/-- Add a plain scalar; a key may follow where it ends with its line. -/
def takePlain (lexer : Lexer) : Except Fault Lexer := do
  let remembered ← lexer.remember
  let plain := plainText lexer.inFlow (lexer.indent + 1) lexer.cursor
  .ok ((remembered.allowKey plain.endsLine).take
    (.scalar (Text.ofChars plain.chars) true, plain.cursor))

/-- Whether the character behind the cursor is an indicator, as it is everywhere in flow and before
a gap elsewhere. -/
def indicates (lexer : Lexer) (char : Char) : Bool :=
  lexer.cursor.peek == char && (lexer.inFlow || isGap (lexer.cursor.peekAt 1))

/-- Whether a plain scalar may start behind the cursor. -/
def startsPlain (lexer : Lexer) : Bool :=
  let first := lexer.cursor.peek
  (!isGap first && !isOneOf "-?:,[]\x7b\x7d#&*!|>'\"%@`" first)
    || (!isGap (lexer.cursor.peekAt 1)
        && (first == '-' || (!lexer.inFlow && (first == '?' || first == ':'))))

/-- Add the token behind the cursor, which is not at the end of the text. -/
def takeToken (lexer : Lexer) : Except Fault Lexer :=
  let cursor := lexer.cursor
  let first := cursor.peek
  let atLineStart := cursor.column == 0
  if first = '%' && atLineStart then do
    let ended ← lexer.endDocument
    let lexeme ← readDirective ended.cursor
    .ok (ended.take lexeme)
  else if atLineStart && cursor.standsAlone "---" then lexer.takeSeparator .documentStart
  else if atLineStart && cursor.standsAlone "..." then lexer.takeSeparator .documentEnd
  else if first = '[' then lexer.openFlow .flowSequenceStart
  else if first = '\x7b' then lexer.openFlow .flowMappingStart
  else if first = ']' then lexer.closeFlow .flowSequenceEnd
  else if first = '\x7d' then lexer.closeFlow .flowMappingEnd
  else if first = ',' then lexer.takeFlowEntry
  else if first = '-' && isGap (cursor.peekAt 1) then lexer.takeBlockEntry
  else if lexer.indicates '?' then lexer.takeIndicated .key
  else if lexer.indicates ':' then lexer.takeValue
  else if first = '*' then lexer.takeNode (readAnchor .alias)
  else if first = '&' then lexer.takeNode (readAnchor .anchor)
  else if first = '!' then lexer.takeNode readTag
  else if (first = '|' || first = '>') && !lexer.inFlow then lexer.takeBlock
  else if first = '\x27' || first = '\x22' then lexer.takeNode readQuoted
  else if lexer.startsPlain then lexer.takePlain
  else .error .malformed

/-- Go to the next token and close what ends before it. -/
def approach (lexer : Lexer) : Except Fault Lexer := do
  let near := lexer.skipMark.skipToToken (lexer.cursor.rest.length + 1)
  let kept ← near.dropStale
  .ok (kept.unwind kept.cursor.column)

end Lexer

/-- The tokens of a text that are settled before the first fault. -/
structure Tokens where
  tokens : List Token
  fault : Option Fault

/-- The tokens of a text without fault. -/
def Lexer.finish (lexer : Lexer) : Tokens :=
  ⟨lexer.tokens.reverse, none⟩

/-- How many tokens are settled: those before the first candidate that is still near enough to
become a key. -/
def Lexer.settled (lexer : Lexer) : Nat :=
  let near := lexer.candidates.filter fun entry => !Lexer.isStale lexer.cursor entry.2
  near.foldl (fun count entry => min count entry.2.place) lexer.count

/-- What a lexer has settled when it meets a fault. -/
def Lexer.stop (lexer : Lexer) (fault : Fault) : Tokens :=
  ⟨lexer.tokens.reverse.take lexer.settled, some fault⟩

/-- Add the tokens up to the next place, or end the text; the second part says whether it has
ended. -/
def Lexer.advance (lexer : Lexer) : Except Fault (Lexer × Bool) := do
  let near ← lexer.approach
  if near.cursor.rest.isEmpty then
    let ended ← near.endDocument
    .ok (ended.push .streamEnd, true)
  else
    let next ← near.takeToken
    .ok (next, false)

/-- Run a lexer to the end of its text or to the first fault. -/
def Lexer.run : (fuel : Nat) → Lexer → Tokens
  | 0, lexer => lexer.stop .malformed
  | fuel + 1, lexer =>
      match lexer.advance with
      | .error fault => lexer.stop fault
      | .ok (ended, true) => ended.finish
      | .ok (next, false) => next.run fuel

def tokens (chars : List Char) : Tokens :=
  (Lexer.start chars).run (chars.length + 2)

end ZodSchemas.Yaml
