import ZodSchemas.Yaml.Cursor
import ZodSchemas.Yaml.Fault

namespace ZodSchemas.Yaml

/-!
# Block scalars

A literal block keeps its lines; a folded one joins lines that start with no
blank.  The header may state how the line breaks at the end are treated and how
far the lines are indented; otherwise the first line decides on the indentation.
-/

/-- What happens to the line breaks at the end of a block. -/
inductive Chomping where
  | clip
  | strip
  | keep
deriving Repr, DecidableEq

/-- The header of a block. -/
structure BlockHeader where
  chomping : Chomping
  increment : Option Nat
deriving Repr, DecidableEq

def readChomping (cursor : Cursor) : Chomping × Cursor :=
  if cursor.peek = '+' then (.keep, cursor.next)
  else if cursor.peek = '-' then (.strip, cursor.next)
  else (.clip, cursor)

/-- Read an indicator of indentation, which is not zero. -/
def readIncrement (cursor : Cursor) : Except Fault (Option Nat × Cursor) :=
  if cursor.peek = '0' then .error .malformed
  else if isDigit cursor.peek then .ok (some (cursor.peek.toNat - 48), cursor.next)
  else .ok (none, cursor)

/-- Read the indicators of a header, in either order. -/
def readIndicators (cursor : Cursor) : Except Fault (BlockHeader × Cursor) := do
  let (chomping, behind) := readChomping cursor
  let (increment, behind) ← readIncrement behind
  let (chomping, behind) := if chomping = .clip then readChomping behind else (chomping, behind)
  if isBlankOrEnd behind.peek then .ok (⟨chomping, increment⟩, behind) else .error .malformed

/-- The place behind a header: behind its line, on which only a comment may follow. -/
def behindHeader (cursor : Cursor) : Except Fault Cursor :=
  let behind := cursor.skipComment
  if isBreakOrEnd behind.peek then .ok behind.next else .error .malformed

/-- The place behind blanks that stand before a column. -/
def skipIndent (indent : Nat) : (fuel : Nat) → Cursor → Cursor
  | 0, cursor => cursor
  | fuel + 1, cursor =>
      if cursor.column < indent ∧ cursor.peek = ' ' then skipIndent indent fuel cursor.next
      else cursor

/-- The breaks of empty lines before a line indented by `indent`. -/
def blockBreaks (indent : Nat) : (fuel : Nat) → Cursor → List Char × Cursor
  | 0, cursor => ([], cursor)
  | fuel + 1, cursor =>
      let behind := skipIndent indent indent cursor
      if isBreak behind.peek then
        let (breaks, last) := blockBreaks indent fuel behind.next
        (behind.breakChar :: breaks, last)
      else
        ([], behind)

/-- The breaks of empty lines, the widest indentation found on the way, and the place of the first
character that is neither blank nor break. -/
def detectIndent : (fuel : Nat) → Cursor → Nat → List Char × Nat × Cursor
  | 0, cursor, widest => ([], widest, cursor)
  | fuel + 1, cursor, widest =>
      if cursor.peek = ' ' then
        detectIndent fuel cursor.next (max widest cursor.next.column)
      else if isBreak cursor.peek then
        let (breaks, found) := detectIndent fuel cursor.next widest
        (cursor.breakChar :: breaks, found)
      else
        ([], widest, cursor)

/-- The characters that follow a line: its break, or a fold. -/
def lineJoint (folded startsFilled : Bool) (lineBreak : Char) (breaks : List Char)
    (following : Char) : List Char :=
  if folded && lineBreak == '\n' && startsFilled && !isSpacing following then
    if breaks.isEmpty then [' '] else []
  else
    [lineBreak]

def blockTail (chomping : Chomping) (lineBreak breaks : List Char) : List Char :=
  match chomping with
  | .strip => []
  | .clip => lineBreak
  | .keep => lineBreak ++ breaks

/-- Read the lines of a block behind some empty lines. -/
def readBlockLines (folded : Bool) (chomping : Chomping) (indent : Nat) :
    (fuel : Nat) → (breaks : List Char) → Cursor → List Char × Cursor
  | 0, _, cursor => ([], cursor)
  | fuel + 1, breaks, cursor =>
      let startsFilled := !isSpacing cursor.peek
      let (line, behind) := cursor.span (!isBreakOrEnd ·)
      let lineBreak := if isBreak behind.peek then [behind.breakChar] else []
      let (following, last) := blockBreaks indent (behind.next.rest.length + 1) behind.next
      if last.column = indent ∧ last.peek ≠ endMark then
        let joint := lineJoint folded startsFilled behind.breakChar following last.peek
        let (others, stop) := readBlockLines folded chomping indent fuel following last
        (breaks ++ line ++ joint ++ others, stop)
      else
        (breaks ++ line ++ blockTail chomping lineBreak following, last)

/-- The block scalar at the place of its indicator, inside a collection indented by `outer`, and
the place behind it. -/
def blockText (outer : Int) (cursor : Cursor) : Except Fault (List Char × Cursor) := do
  let (header, behind) ← readIndicators cursor.next
  let content ← behindHeader behind
  let least := (max (outer + 1) 1).toNat
  let (breaks, indent, first) :=
    match header.increment with
    | none =>
        let (breaks, widest, first) := detectIndent content.rest.length content 0
        (breaks, max least widest, first)
    | some increment =>
        let indent := least + increment - 1
        let (breaks, first) := blockBreaks indent (content.rest.length + 1) content
        (breaks, indent, first)
  if first.column = indent ∧ first.peek ≠ endMark then
    .ok (readBlockLines (cursor.peek == '>') header.chomping indent (first.rest.length + 1) breaks
      first)
  else
    .ok (blockTail header.chomping [] breaks, first)

end ZodSchemas.Yaml
