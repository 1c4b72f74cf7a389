import ZodSchemas.Proofs.CompiledFiles

namespace ZodSchemas

/-!
# Lines of the index

The index has one line for each enumeration, for each composite and for each
operation that the first mapping of a model lists.  Every line leads to a file,
and every file but the index itself is led to by a line.  An operation that the
first mapping of its model does not list has no line; a file for it is there only
if another model has one of that name.
-/

open Metadata

namespace Assembly

/-- Whether the first mapping of a model lists an operation. -/
def requests (document : Document) (model : String) (operation : Operation) : Bool :=
  (document.mapping? model).any (·.supports operation)

section FirstMappings

variable {document : Document}

end FirstMappings

section Places

end Places

section Compiled

variable {workingDirectory : String} {settings : Settings} {document : Document}
  {files : List (String × String)}

end Compiled

end Assembly

end ZodSchemas
