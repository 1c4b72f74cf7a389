import ZodSchemas.CommandLine.Option
import ZodSchemas.Text.CharClass

namespace ZodSchemas.CommandLine

/-!
# Words

Each word of a command is an option, something that looks like one, or an
argument.  A long option may be cut short as long as no other one starts so; a
short one may be written together with what follows, with an equals sign between
them or without.  Everything behind `--` is an argument.
-/

/-- An option as it is written, with the text that is written together with it. -/
structure WrittenOption where
  option : CommandOption
  spelling : String
  attached : Option String
deriving Repr, DecidableEq

/-- Whether an option is written with one hyphen. -/
def WrittenOption.isShort (written : WrittenOption) : Bool :=
  (written.spelling.toList.drop 1).head? != some '-'

/-- A word of a command. -/
inductive Word where
  | option (written : WrittenOption)
  | unknown (text : String)
  | argument (text : String)
  | separator
deriving Repr, DecidableEq

namespace Word

/-- A word as it is written, unless it is an option. -/
def text : Word → String
  | .option written => written.spelling
  | .unknown text | .argument text => text
  | .separator => "--"

/-- The parts of a text before and behind the first equals sign, if it has one. -/
def splitEquals (text : String) : String × Option String :=
  let chars := text.toList
  match chars.dropWhile (· != '=') with
  | [] => (text, none)
  | _ :: value => (String.ofList (chars.takeWhile (· != '=')), some (String.ofList value))

/-- A decimal numeral of any script. -/
def isNumeral (char : Char) : Bool :=
  (Text.digitValue? char).isSome

/-- Whether a text is a number behind its sign. -/
def isUnsignedNumber (chars : List Char) : Bool :=
  let digits := chars.takeWhile isNumeral
  match chars.drop digits.length with
  | [] => !digits.isEmpty
  | '.' :: fraction => !fraction.isEmpty && fraction.all isNumeral
  | _ => false

/-- Whether a text is a negative number; a line feed at its end does not count. -/
def isNegativeNumber (text : String) : Bool :=
  match text.toList with
  | '-' :: chars =>
      isUnsignedNumber (if chars.getLast? = some '\n' then chars.dropLast else chars)
  | _ => false

/-- The options that a text may stand for, which is no spelling itself. -/
def candidates (text : String) : List WrittenOption :=
  match text.toList with
  | '-' :: '-' :: _ =>
      let (start, attached) := splitEquals text
      (CommandOption.spelledFrom start).map fun entry => ⟨entry.2, entry.1, attached⟩
  | '-' :: letter :: rest =>
      let spelling := String.ofList ['-', letter]
      match CommandOption.spelled? spelling with
      | some found => [⟨found, spelling, some (String.ofList rest)⟩]
      | none => []
  | _ => []

/-- The option that a text spells out, alone or before an equals sign. -/
def spelledOut? (text : String) : Option WrittenOption :=
  match CommandOption.spelled? text with
  | some found => some ⟨found, text, none⟩
  | none =>
      match splitEquals text with
      | (_, none) => none
      | (start, attached) =>
          (CommandOption.spelled? start).map fun found => ⟨found, start, attached⟩

/-- What a text is that starts with a hyphen and stands for no option. -/
def ofOther (text : String) : Word :=
  if isNegativeNumber text || text.toList.contains ' ' then .argument text else .unknown text

def ofText (text : String) : Except UsageFault Word :=
  match text.toList with
  | '-' :: _ :: _ =>
      match spelledOut? text with
      | some written => .ok (.option written)
      | none =>
          match candidates text with
          | [] => .ok (ofOther text)
          | [written] => .ok (.option written)
          | several => .error (.ambiguous text (several.map (·.spelling)))
  | _ => .ok (.argument text)

def ofTexts : List String → Except UsageFault (List Word)
  | [] => .ok []
  | text :: rest =>
      if text = "--" then
        .ok (.separator :: rest.map .argument)
      else do
        let first ← ofText text
        let others ← ofTexts rest
        .ok (first :: others)

end Word

end ZodSchemas.CommandLine
