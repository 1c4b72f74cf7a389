import ZodSchemas.Assembly.Composite
import ZodSchemas.Assembly.Operation
import ZodSchemas.SchemaUnit.Render

namespace ZodSchemas.Assembly

/-!
# Plans

A plan lists one task for each enumeration, then for each composite, then for
each operation of the first mapping of each model.  A task that fails is noted
and left out, except for an operation on an unknown model: that ends the run.
What the other tasks yield does not depend on it, so tasks may run side by side.
-/

open Metadata

/-- Why a task yields no unit. -/
inductive TaskFailure where
  | unknownModel (model : String)
  | broken (kind message : String)
deriving Repr, DecidableEq

/-- A task: the label that messages use, and what it yields. -/
structure Task where
  label : String
  outcome : Except TaskFailure SchemaUnit

/-- The sentence about a model that the document does not contain. -/
def unknownModelMessage (model : String) : String :=
  "Model '" ++ model ++ "' is not defined in the metadata."

/-- The unit of an operation on a model given by its name. -/
def operationOutcome (context : Context) (document : Document) (model : String)
    (operation : Operation) : Except TaskFailure SchemaUnit :=
  match document.model? model with
  | some found => .ok (operationUnit context document found operation)
  | none => .error (.unknownModel model)

def enumTask (enumType : EnumType) : Task :=
  ⟨"enum:" ++ enumType.name, .ok (enumUnit enumType)⟩

def compositeTask (context : Context) (composite : Composite) : Task :=
  ⟨"object:" ++ composite.name, .ok (compositeUnit context composite)⟩

def operationTask (context : Context) (document : Document) (model : String)
    (operation : Operation) : Task :=
  ⟨"operation:" ++ model ++ "." ++ operation.label,
    operationOutcome context document model operation⟩

def firstMappings : List OperationMapping → List OperationMapping
  | [] => []
  | mapping :: rest =>
      mapping :: (firstMappings rest).filter fun other => other.model ≠ mapping.model

def mappingTasks (context : Context) (document : Document) (mapping : OperationMapping) :
    List Task :=
  (mappedOperations mapping).map (operationTask context document mapping.model)

def plan (context : Context) (document : Document) : List Task :=
  document.enums.map enumTask
    ++ (allComposites context document).map (compositeTask context)
    ++ (firstMappings document.mappings).flatMap (mappingTasks context document)

/-- The units of the tasks that succeed, and a note about each one that fails. -/
structure Assembled where
  units : List SchemaUnit
  failures : List String
deriving Repr, BEq

/-- Run tasks in order; the first unknown model ends the run. -/
def assemble : List Task → Except String Assembled
  | [] => .ok ⟨[], []⟩
  | task :: rest =>
      match task.outcome with
      | .ok unit =>
          (assemble rest).map fun assembled => { assembled with units := unit :: assembled.units }
      | .error (.unknownModel model) => .error model
      | .error (.broken kind message) =>
          (assemble rest).map fun assembled =>
            { assembled with
              failures := (task.label ++ ": " ++ kind ++ ": " ++ message) :: assembled.failures }

/-- The units of a run followed by their index. -/
def withIndex (units : List SchemaUnit) : List SchemaUnit :=
  units ++ [SchemaUnit.index units]

/-- Why a document cannot be compiled. -/
inductive CompileError where
  | unknownModel (model : String)
  | failedUnits (failures : List String)
  | unrenderable (error : RenderError)
deriving Repr, DecidableEq

/-- The sentence about an error. -/
def CompileError.message : CompileError → String
  | .unknownModel model => unknownModelMessage model
  | .failedUnits failures =>
      toString failures.length ++ " unit(s) failed: " ++ "; ".intercalate failures
  | .unrenderable error => error.message

/-- The contents of files by path: a repeated path keeps its place and takes the last content. -/
def contentsByPath (files : List RenderedFile) : List (String × String) :=
  files.foldl (fun table file => updateEntry file.path file.content (fun _ => file.content) table) []

/-- The text of every module of a document by its path below the schemas directory. -/
def compile (workingDirectory : String) (settings : Settings) (document : Document) :
    Except CompileError (List (String × String)) :=
  let context := Context.build settings document
  match assemble (plan context document) with
  | .error model => .error (.unknownModel model)
  | .ok assembled =>
      if assembled.failures.isEmpty then
        match (withIndex assembled.units).mapM (SchemaUnit.render workingDirectory context) with
        | .ok files => .ok (contentsByPath files)
        | .error error => .error (.unrenderable error)
      else
        .error (.failedUnits assembled.failures)

end ZodSchemas.Assembly
