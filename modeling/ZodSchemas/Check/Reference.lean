import ZodSchemas.Assembly.Plan
import ZodSchemas.Check.Metadata
import ZodSchemas.Check.Settings

namespace ZodSchemas.Check

/-!
# Checks of references

A reference to a unit that is not generated would import a module that does not
exist.  The check assembles the composites and the operations of known models
and reports each missing symbol once, at its first occurrence.
-/

open ZodSchemas.Metadata

/-- The operation units of a mapping, none for an unknown model. -/
def mappingUnits (context : Context) (document : Document) (mapping : OperationMapping) :
    List SchemaUnit :=
  match document.model? mapping.model with
  | some model =>
      (Assembly.mappedOperations mapping).map (Assembly.operationUnit context document model)
  | none => []

def referringUnits (context : Context) (document : Document) : List SchemaUnit :=
  (Assembly.allComposites context document).map (Assembly.compositeUnit context)
    ++ document.mappings.flatMap (mappingUnits context document)

def generatedReferences (document : Document) (units : List SchemaUnit) : List Reference :=
  document.enumNames.map (⟨·, .enumeration⟩)
    ++ units.map fun unit => ⟨unit.name, if unit.kind = .object then .object else .operation⟩

/-- The warning about a reference of a unit. -/
def missingFinding (unit : SchemaUnit) (reference : Reference) : Finding :=
  .warning "UNRESOLVED_REFERENCE"
    ("'" ++ unit.name ++ "' references '" ++ reference.symbol ++ "', which is not generated.")
    [("unit", unit.path), ("reference", reference.symbol)]

/-- The references to missing modules with the units they occur in. -/
def missingReferences (generated : List Reference) (units : List SchemaUnit) :
    List (SchemaUnit × Reference) :=
  units.flatMap fun unit =>
    ((unit.expression.elim [] Expr.references).filter (!generated.contains ·)).map (unit, ·)

def firstMissing : List String → List (SchemaUnit × Reference) → List (SchemaUnit × Reference)
  | _, [] => []
  | reported, missing :: rest =>
      if reported.contains missing.2.symbol then firstMissing reported rest
      else missing :: firstMissing (missing.2.symbol :: reported) rest

/-- Check the references between units. -/
def references (settings : Settings) (document : Document) : Findings :=
  let units := referringUnits (Context.build settings document) document
  (firstMissing [] (missingReferences (generatedReferences document units) units)).map
    fun missing => missingFinding missing.1 missing.2

/-- All checks; references are checked only when nothing else is an error. -/
def full (settings : Settings) (document : Document) : Findings :=
  let structural := metadata document ++ Check.settings settings document
  if structural.hasErrors then structural else structural ++ references settings document

end ZodSchemas.Check
