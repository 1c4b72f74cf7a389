namespace ZodSchemas.Yaml

/-!
# Tokens

The tokens of a YAML text, with tokens of their own for the start and the end of
the collections that indentation makes.
-/

/-- A token. -/
inductive Token where
  | version (major : Nat)
  | handle (handle expansion : String)
  | directive
  | documentStart
  | documentEnd
  | streamEnd
  | blockSequenceStart
  | blockMappingStart
  | blockEnd
  | flowSequenceStart
  | flowSequenceEnd
  | flowMappingStart
  | flowMappingEnd
  | blockEntry
  | flowEntry
  | key
  | value
  | alias (name : String)
  | anchor (name : String)
  | tag (handle : Option String) (suffix : String)
  | scalar (text : String) (plain : Bool)
deriving Repr, DecidableEq

def Token.isDirective : Token → Bool
  | .version _ | .handle _ _ | .directive => true
  | _ => false

end ZodSchemas.Yaml
