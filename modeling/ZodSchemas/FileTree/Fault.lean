import ZodSchemas.Text.Literal

namespace ZodSchemas

/-!
# Faults of file operations

The system refuses an operation on a path for one of six causes.  Three further
faults are found before the system is asked: a path with a null character, a
path whose links lead back to themselves, and a path or a content with halves of
surrogate pairs, which have no bytes.
-/

/-- Why the system refuses an operation. -/
inductive Refusal where
  | missing
  | occupied
  | notDirectory
  | isDirectory
  | nameTooLong
  | tooManyLinks
deriving Repr, DecidableEq

namespace Refusal

/-- The number of a cause. -/
def code : Refusal → Nat
  | .missing => 2
  | .occupied => 17
  | .notDirectory => 20
  | .isDirectory => 21
  | .nameTooLong => 36
  | .tooManyLinks => 40

/-- The name under which messages mention a cause. -/
def kindName : Refusal → String
  | .missing => "FileNotFoundError"
  | .occupied => "FileExistsError"
  | .notDirectory => "NotADirectoryError"
  | .isDirectory => "IsADirectoryError"
  | .nameTooLong | .tooManyLinks => "OSError"

def words : Refusal → String
  | .missing => "No such file or directory"
  | .occupied => "File exists"
  | .notDirectory => "Not a directory"
  | .isDirectory => "Is a directory"
  | .nameTooLong => "File name too long"
  | .tooManyLinks => "Too many levels of symbolic links"

end Refusal

/-- What is wrong with a path. -/
inductive FileFault where
  | refused (refusal : Refusal) (path : String)
  | nullByte
  | endlessLink
  | notUnicode
deriving Repr, DecidableEq

namespace FileFault

/-- The sentence about a fault. -/
def message : FileFault → String
  | .refused refusal path =>
      "[Errno " ++ toString refusal.code ++ "] " ++ refusal.words ++ ": " ++ Text.literal path
  | .nullByte => "embedded null byte"
  | .endlessLink => "A link leads back to itself."
  | .notUnicode => "A half of a surrogate pair cannot be written."

/-- The name under which messages mention the kind of a fault. -/
def kindName : FileFault → String
  | .refused refusal _ => refusal.kindName
  | .nullByte => "ValueError"
  | .endlessLink => "RuntimeError"
  | .notUnicode => "UnicodeEncodeError"

/-- The kind of a fault with its sentence. -/
def report (fault : FileFault) : String :=
  fault.kindName ++ ": " ++ fault.message

/-- Whether the system has refused an operation. -/
def isRefused : FileFault → Bool
  | .refused _ _ => true
  | .nullByte | .endlessLink | .notUnicode => false

end FileFault

end ZodSchemas
