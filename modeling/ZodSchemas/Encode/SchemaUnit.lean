import ZodSchemas.Encode.Expr
import ZodSchemas.SchemaUnit.Basic

namespace ZodSchemas.Encode

/-!
# Writing units as document values
-/

open Data

/-- Write a unit, with all that follows from its fields. -/
def schemaUnit (unit : SchemaUnit) : Value :=
  let expression := (unit.expression.map expr).getD .null
  .object [("kind", .text unit.kind.label), ("name", .text unit.name), ("expr", expression),
    ("annotation", .textOrNull unit.hostType), ("members", .texts unit.members),
    ("directory", .text unit.directory), ("export", .text unit.exportName),
    ("stem", .text unit.stem), ("path", .text unit.path),
    ("self", .textOrNull (unit.selfReference?.map Reference.symbol)),
    ("usesJson", .bool unit.usesJson), ("needsHost", .bool unit.needsHostTypes),
    ("repr", .text unit.summary)]

end ZodSchemas.Encode
