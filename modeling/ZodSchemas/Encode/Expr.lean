import ZodSchemas.Data.Value
import ZodSchemas.Expr.Basic

namespace ZodSchemas.Encode

/-!
# Writing expressions as document values

A node is an object that names its kind and holds what the node holds.
-/

open Data

mutual

def expr : Expr → Value
  | .primitive code => .object [("k", .text "prim"), ("code", .text code)]
  | .json => .object [("k", .text "json")]
  | .reference target =>
      .object [("k", .text "ref"), ("name", .text target.name), ("kind", .text target.kind.label)]
  | .deferred inner hostType =>
      .object [("k", .text "lazy"), ("inner", expr inner), ("annotation", .textOrNull hostType)]
  | .array inner => .object [("k", .text "array"), ("inner", expr inner)]
  | .optional inner => .object [("k", .text "optional"), ("inner", expr inner)]
  | .nullable inner => .object [("k", .text "nullable"), ("inner", expr inner)]
  | .union members => .object [("k", .text "union"), ("members", .list (exprs members))]
  | .object fields strict =>
      .object [("k", .text "object"), ("fields", .list (exprFields fields)),
        ("strict", .bool strict)]
  | .enumeration values => .object [("k", .text "enum"), ("values", .texts values)]
  | .foreign _ => .object [("k", .text "unknown")]

/-- Write several expressions. -/
def exprs : List Expr → List Value
  | [] => []
  | first :: rest => expr first :: exprs rest

/-- Write the fields of an object, each with its name. -/
def exprFields : List (String × Expr) → List Value
  | [] => []
  | (name, value) :: rest => .list [.text name, expr value] :: exprFields rest

end

end ZodSchemas.Encode
