namespace ZodSchemas.Text

/-!
# Parts between marks

Segments of a path, parts of a number and steps to an attribute stand between
marks.  A mark at either end, or next to another one, has an empty part beside
it.
-/

/-- The parts of a text between the places of a mark. -/
def partsAt (mark : Char) : List Char → List (List Char)
  | [] => [[]]
  | char :: rest =>
      if char = mark then
        [] :: partsAt mark rest
      else
        match partsAt mark rest with
        | [] => [[char]]
        | first :: others => (char :: first) :: others

end ZodSchemas.Text
