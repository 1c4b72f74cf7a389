import ZodSchemas.Metadata.Document
import ZodSchemas.Path

namespace ZodSchemas

/-!
# Settings of a run

What the user may set, and the context that a run derives from the settings and
the metadata before any unit is assembled.
-/

open Metadata

/-- The module that exports the host types by default. -/
def defaultClientModule : String := "@prisma/client"

/-- The provider name of the newer client. -/
def newClientProvider : String := "prisma-client"

/-- The directory that holds the generated modules. -/
def schemasDirectory : String := "schemas"

/-- The preview feature that changes the ordering types. -/
def fullTextSearchFeature : String := "fullTextSearch"

/-- The client whose host types annotate the schemas. -/
structure Client where
  provider : String
  output : Option String
  moduleFormat : Option String
  runtime : Option String
  importExtension : Option String
deriving Repr, DecidableEq

/-- The settings of a run. -/
structure Settings where
  output : String
  emitsSelect : Bool
  emitsInclude : Bool
  client : Client
  workers : Int
  cleansOutput : Bool
  writesManifest : Bool
deriving Repr, DecidableEq

/-- What every part of a run reads. -/
structure Context where
  outputPath : String
  provider : Provider
  client : Client
  emitsSelect : Bool
  emitsInclude : Bool
  previewFeatures : List String
  enumNames : List String
  rawOperations : List (String × String)
deriving Repr, DecidableEq

namespace Client

/-- The client that is assumed when nothing is set. -/
def default : Client :=
  ⟨"prisma-client-js", none, none, none, none⟩

/-- Whether the client is written to a place of its own. -/
def hasCustomOutput (client : Client) : Bool :=
  match client.output with
  | some output => output != defaultClientModule
  | none => false

/-- Whether the client is the newer one. -/
def isNew (client : Client) : Bool :=
  client.provider == newClientProvider || client.moduleFormat.isSome || client.runtime.isSome

end Client

namespace Settings

/-- The settings that are assumed when nothing is set. -/
def default : Settings :=
  ⟨"./generated", false, false, .default, 1, false, false⟩

end Settings

namespace Context

/-- The context that is assumed when nothing is set. -/
def default : Context :=
  ⟨"./generated", .postgresql, .default, false, false, [], [], []⟩

/-- The context of a run; raw operations are renamed for document databases only. -/
def build (settings : Settings) (document : Document) : Context where
  outputPath := settings.output
  provider := document.provider
  client := settings.client
  emitsSelect := settings.emitsSelect
  emitsInclude := settings.emitsInclude
  previewFeatures := distinct document.previewFeatures
  enumNames := distinct document.enumNames
  rawOperations :=
    if document.provider = .mongodb then rawOperationTable document.mappings else []

/-- The directory of the generated modules: the output path, with a last segment added unless the
path ends in it. -/
def schemasPath (context : Context) : String :=
  if Path.baseName (Path.normalize context.outputPath) = schemasDirectory then context.outputPath
  else Path.join context.outputPath schemasDirectory

/-- The extension that imports between modules carry. -/
def importSuffix (context : Context) : String :=
  match context.client.importExtension with
  | some extension =>
      if context.client.isNew && context.client.moduleFormat == some "esm" && !extension.isEmpty then
        "." ++ extension
      else
        ""
  | none => ""

/-- Whether bulk creation may skip duplicates. -/
def skipsDuplicates (context : Context) : Bool :=
  context.provider.skipsDuplicates

/-- Whether ordering types include the relevance of a text search. -/
def ordersByRelevance (context : Context) : Bool :=
  context.provider.searchesFullText && context.previewFeatures.contains fullTextSearchFeature

def isEnum (context : Context) (name : String) : Bool :=
  context.enumNames.contains name

/-- The argument type of a raw operation, if a name has the form of one and is listed. -/
def rawOperation? (context : Context) (name : String) : Option String :=
  if isRawOperationType name then context.rawOperations.lookup name else none

/-- The one-line form of a context. -/
def summary (context : Context) : String :=
  let word (flag : Bool) := if flag then "True" else "False"
  "<GenerationContext " ++ context.provider.label ++ " select=" ++ word context.emitsSelect
    ++ " include=" ++ word context.emitsInclude ++ " schemas=" ++ context.schemasPath ++ ">"

end Context

end ZodSchemas
