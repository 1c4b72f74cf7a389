import ZodSchemas.Assembly.HostType
import ZodSchemas.SchemaUnit.Basic

namespace ZodSchemas.Assembly

/-!
# Units of composites and enumerations

A composite becomes a strict object of the fields that have a validator, in their
order.  The arguments of a raw operation change their name, and an aggregate
input is annotated with a host type of another name.
-/

open Metadata

/-- The name of the unit that a composite becomes, and the name of its host type. -/
def compositeNames (context : Context) (composite : String) : String × String :=
  match context.rawOperation? composite with
  | some arguments => (rawUnitName arguments, arguments)
  | none =>
      if isAggregateInput composite then (composite, composite ++ "Type") else (composite, composite)

/-- The entries of the object that a composite becomes. -/
def compositeFields (context : Context) (composite : Composite) : List (String × Expr) :=
  composite.fields.filterMap (fieldOf? context composite.name)

def compositeUnit (context : Context) (composite : Composite) : SchemaUnit :=
  let (unitName, hostType) := compositeNames context composite.name
  { kind := .object
    name := unitName
    expression := some (.object (compositeFields context composite) true)
    hostType := annotatedType? composite hostType
    members := [] }

def enumUnit (enumType : EnumType) : SchemaUnit where
  kind := .enumeration
  name := enumType.name
  expression := some (.enumeration enumType.values)
  hostType := none
  members := []

end ZodSchemas.Assembly
