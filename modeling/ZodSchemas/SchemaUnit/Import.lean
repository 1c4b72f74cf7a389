import ZodSchemas.Settings.Basic
import ZodSchemas.SchemaUnit.Basic

namespace ZodSchemas

/-!
# Imports of a module

A module imports the validator library, the host types where it mentions them,
and one symbol for each schema it refers to.  The host types come from the
default client module, or by a relative path from a client with a place of its
own; the newer client keeps them under a last segment `client`.
-/

/-- One import of a module. -/
structure Import where
  symbol : String
  source : String
  typeOnly : Bool
deriving Repr, DecidableEq

/-- The last segment under which the newer client keeps its types. -/
def clientEntry : String := "/client"

def Import.line (spec : Import) : String :=
  (if spec.typeOnly then "import type" else "import") ++ " \x7b " ++ spec.symbol
    ++ " \x7d from '" ++ spec.source ++ "';"

/-- A relative module specifier; a target without a path is the directory itself. -/
def specifier (workingDirectory start target : String) : String :=
  (Path.specifier? workingDirectory start target).getD "."

def libraryImport : Import :=
  ⟨"z", "zod", false⟩

namespace SchemaUnit

def referenceModule (workingDirectory : String) (context : Context) (unit : SchemaUnit)
    (reference : Reference) : String :=
  let start := if unit.directory.isEmpty then "." else unit.directory
  specifier workingDirectory start reference.stem ++ context.importSuffix

/-- Add the last segment of the newer client to a relative path, unless it is there. -/
def withClientEntry (context : Context) (source : String) : String :=
  if context.client.isNew && !clientEntry.toList.isSuffixOf source.toList
      && !Metadata.occursIn defaultClientModule.toList source.toList then
    source ++ clientEntry
  else
    source

/-- The place of the client that a relative path leads to. -/
def clientPlace (context : Context) : String :=
  match context.client.output with
  | some output => if output.isEmpty then defaultClientModule else output
  | none => defaultClientModule

def hostModule (workingDirectory : String) (context : Context) (unit : SchemaUnit) : String :=
  if context.client.hasCustomOutput then
    withClientEntry context
      (specifier workingDirectory (Path.join context.schemasPath unit.directory)
        (clientPlace context))
  else
    defaultClientModule

def referenceImport (workingDirectory : String) (context : Context) (unit : SchemaUnit)
    (reference : Reference) : Import :=
  ⟨reference.symbol, unit.referenceModule workingDirectory context reference, false⟩

/-- The imports of a unit's module; the index has none. -/
def imports (workingDirectory : String) (context : Context) (unit : SchemaUnit) : List Import :=
  if unit.kind = .index then
    []
  else
    [libraryImport]
      ++ (if unit.needsHostTypes then
            [⟨"Prisma", unit.hostModule workingDirectory context, true⟩]
          else
            [])
      ++ unit.references.map (unit.referenceImport workingDirectory context)

end SchemaUnit

/-- The module that the index re-exports for a stem. -/
def indexModule (context : Context) (stem : String) : String :=
  "./" ++ stem ++ context.importSuffix

end ZodSchemas
