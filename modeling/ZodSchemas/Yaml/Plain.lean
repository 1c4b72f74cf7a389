import ZodSchemas.Yaml.Cursor

namespace ZodSchemas.Yaml

/-!
# Plain scalars

A plain scalar is a sequence of runs without gaps, joined by blanks or folded
line breaks.  It ends before a comment, before a colon that a gap follows, before
a line that is indented less, before a document separator, and inside flow
collections also before their punctuation.
-/

/-- Whether a plain scalar ends before a character that another one follows. -/
def endsPlain (inFlow : Bool) (char following : Char) : Bool :=
  isGap char
    || (char == ':' && (isGap following || (inFlow && isOneOf ",[]\x7b\x7d" following)))
    || (inFlow && isOneOf ",?[]\x7b\x7d" char)

/-- The run at the front of a text. -/
def plainRun (inFlow : Bool) : List Char → List Char
  | [] => []
  | char :: rest =>
      if endsPlain inFlow char (rest.headD endMark) then [] else char :: plainRun inFlow rest

/-- What lies behind a run: the characters it is joined to the next run by, none if the scalar
ends there, and whether a line has ended. -/
structure PlainGap where
  joint : List Char
  endsLine : Bool
  cursor : Cursor

/-- The breaks of empty lines, unless a document separator follows one. -/
def emptyLines : (fuel : Nat) → Cursor → Option (List Char) × Cursor
  | 0, cursor => (some [], cursor)
  | fuel + 1, cursor =>
      if cursor.peek = ' ' then
        emptyLines fuel cursor.next
      else if isBreak cursor.peek then
        if cursor.next.atSeparator then (none, cursor.next)
        else
          let (breaks, last) := emptyLines fuel cursor.next
          (breaks.map (cursor.breakChar :: ·), last)
      else
        (some [], cursor)

/-- The gap behind a run. -/
def plainGap (cursor : Cursor) : PlainGap :=
  let (blanks, behind) := cursor.span (· == ' ')
  if !isBreak behind.peek then
    ⟨blanks, false, behind⟩
  else if behind.next.atSeparator then
    ⟨[], true, behind.next⟩
  else
    match emptyLines behind.next.rest.length behind.next with
    | (none, last) => ⟨[], true, last⟩
    | (some breaks, last) => ⟨foldBreaks behind.breakChar breaks, true, last⟩

/-- The characters of a plain scalar, the place behind it, and whether a line ends there. -/
structure PlainText where
  chars : List Char
  endsLine : Bool
  cursor : Cursor

def plainRuns (inFlow : Bool) (indent : Int) : (fuel : Nat) → PlainGap → PlainText
  | 0, gap => ⟨[], gap.endsLine, gap.cursor⟩
  | fuel + 1, gap =>
      let run := plainRun inFlow gap.cursor.rest
      if gap.cursor.peek = '#' ∨ run.isEmpty then
        ⟨[], gap.endsLine, gap.cursor⟩
      else
        let next := plainGap (gap.cursor.skip run.length)
        if next.joint.isEmpty ∨ next.cursor.peek = '#'
            ∨ (!inFlow ∧ (next.cursor.column : Int) < indent) then
          ⟨gap.joint ++ run, next.endsLine, next.cursor⟩
        else
          let others := plainRuns inFlow indent fuel next
          { others with chars := gap.joint ++ run ++ others.chars }

/-- The plain scalar at a place, whose further lines are indented at least by `indent`. -/
def plainText (inFlow : Bool) (indent : Int) (cursor : Cursor) : PlainText :=
  plainRuns inFlow indent cursor.rest.length ⟨[], false, cursor⟩

end ZodSchemas.Yaml
