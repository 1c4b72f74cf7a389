import ZodSchemas.CommandLine.Word
import ZodSchemas.Json.Error
import ZodSchemas.Number.Numeral

namespace ZodSchemas.CommandLine

/-!
# Arguments

The words of a command set its arguments one after the other.  A request for
help or for the version ends the reading at its place; what is missing or too
much is found out at the end.  A value that is written together with its option
and is `--`, the mark of the end of options, counts as no value: the argument is
given, and blank.
-/

open Metadata

/-- What has been given for an option that takes a value. -/
inductive Given (α : Type) where
  | absent
  | blank
  | value (value : α)
deriving Repr, DecidableEq

namespace Given

def ofText (text : String) : Given String :=
  if text = "--" then .blank else .value text

def mapM (read : α → Except ε β) : Given α → Except ε (Given β)
  | .absent => .ok .absent
  | .blank => .ok .blank
  | .value given => (read given).map .value

def value? : Given α → Option α
  | .value given => some given
  | .absent | .blank => none

end Given

/-- What a command is asked to do. -/
structure Arguments where
  metadata : Given String
  output : Given String
  validatesOnly : Bool
  isDryRun : Bool
  emitsSelect : Bool
  emitsInclude : Bool
  provider : Given Provider
  workers : Given Int
  writesManifest : Bool
  cleansOutput : Bool
  isLenient : Bool
  failsOnWarnings : Bool
  verbosity : Nat
  isQuiet : Bool
deriving Repr, DecidableEq

/-- The arguments of a command without words. -/
def Arguments.none : Arguments :=
  ⟨.absent, .absent, false, false, false, false, .absent, .absent, false, false, false, false, 0,
    false⟩

/-- Why the reading of words ends early. -/
inductive Ending where
  | fault (fault : UsageFault)
  | help
  | version
deriving Repr, DecidableEq

def chosenProvider (value : String) : Except Ending Provider :=
  match Provider.all.find? (·.label == value) with
  | some provider => .ok provider
  | none => .error (.fault (.notChoice .provider value (Provider.all.map Provider.label)))

def chosenNumber (option : CommandOption) (value : String) : Except Ending Int :=
  let digits := value.toList.filter fun char => (Number.digitIn? 10 char).isSome
  match Number.readInteger? 10 value.toList with
  | some number =>
      if Json.digitLimit < digits.length then .error (.fault (.notInteger option value))
      else .ok number
  | none => .error (.fault (.notInteger option value))

/-- Carry out an option with its value, which is absent where it takes none. -/
def Arguments.set (arguments : Arguments) (option : CommandOption) (value : Given String) :
    Except Ending Arguments :=
  match option with
  | .help => .error .help
  | .version => .error .version
  | .metadata => .ok { arguments with metadata := value }
  | .output => .ok { arguments with output := value }
  | .validateOnly => .ok { arguments with validatesOnly := true }
  | .dryRun => .ok { arguments with isDryRun := true }
  | .generateSelect => .ok { arguments with emitsSelect := true }
  | .generateInclude => .ok { arguments with emitsInclude := true }
  | .provider => do
      let provider ← value.mapM chosenProvider
      .ok { arguments with provider }
  | .workers => do
      let workers ← value.mapM (chosenNumber .workers)
      .ok { arguments with workers }
  | .manifest => .ok { arguments with writesManifest := true }
  | .clean => .ok { arguments with cleansOutput := true }
  | .noStrict => .ok { arguments with isLenient := true }
  | .failOnWarnings => .ok { arguments with failsOnWarnings := true }
  | .verbose => .ok { arguments with verbosity := arguments.verbosity + 1 }
  | .quiet => .ok { arguments with isQuiet := true }

/-- The options that one word stands for, with their values, and whether the next word is taken as
a value. -/
structure Expansion where
  settings : List (CommandOption × Given String)
  takesNext : Bool
deriving Repr, DecidableEq

def Expansion.single (option : CommandOption) (value : Given String) : Expansion :=
  ⟨[(option, value)], false⟩

/-- The expansion of an option with nothing behind it in its word; `following` is the argument
that the next word is. -/
def expandAlone (option : CommandOption) (following : Option String) :
    Except UsageFault Expansion :=
  if option.takesValue then
    match following with
    | some value => .ok { Expansion.single option (.value value) with takesNext := true }
    | none => .error (.noValue option)
  else
    .ok (.single option .absent)

def expandLong (option : CommandOption) (text : String) : Except UsageFault Expansion :=
  if option.takesValue then .ok (.single option (.ofText text))
  else .error (.extraValue option text)

/-- The expansion of a short option with characters behind it: the first one has to name a further
option unless the option takes them as its value. -/
def expandShort (option : CommandOption) (following : Option String) :
    List Char → Except UsageFault Expansion
  | [] => expandLong option ""
  | letter :: rest =>
      if option.takesValue then expandLong option (String.ofList (letter :: rest))
      else
        match CommandOption.spelled? (String.ofList ['-', letter]) with
        | none => .error (.extraValue option (String.ofList (letter :: rest)))
        | some next => do
            let others ←
              if rest.isEmpty then expandAlone next following else expandShort next following rest
            .ok { others with settings := (option, .absent) :: others.settings }

def WrittenOption.expand (written : WrittenOption) (following : Option String) :
    Except UsageFault Expansion :=
  match written.attached with
  | none => expandAlone written.option following
  | some text =>
      if written.isShort then expandShort written.option following text.toList
      else expandLong written.option text

/-- Arguments with the words that nothing takes. -/
structure Reading where
  arguments : Arguments
  surplus : List String
deriving Repr, DecidableEq

/-- Add a word that nothing takes. -/
def Reading.leave (reading : Reading) (text : String) : Reading :=
  { reading with surplus := reading.surplus ++ [text] }

def Word.argument? : Word → Option String
  | .argument text => some text
  | .option _ | .unknown _ | .separator => none

/-- Carry out the options of a word. -/
def Reading.take (reading : Reading) (expansion : Expansion) : Except Ending Reading := do
  let arguments ← expansion.settings.foldlM
    (fun arguments setting => arguments.set setting.1 setting.2) reading.arguments
  .ok { reading with arguments }

/-- Read words one after the other. -/
def Reading.readWords (reading : Reading) : List Word → Except Ending Reading
  | [] => .ok reading
  | .option written :: rest =>
      match written.expand (rest.head?.bind Word.argument?) with
      | .error fault => .error (.fault fault)
      | .ok expansion => do
          let next ← reading.take expansion
          next.readWords (rest.drop (if expansion.takesNext then 1 else 0))
  | word :: rest => (reading.leave word.text).readWords rest
termination_by words => words.length
decreasing_by
  · simp only [List.length_drop, List.length_cons]
    omega
  · simp only [List.length_cons]
    omega

def Arguments.ofTexts (texts : List String) : Except Ending Arguments :=
  match Word.ofTexts texts with
  | .error fault => .error (.fault fault)
  | .ok words => do
      let reading ← (Reading.mk .none []).readWords words
      if reading.arguments.metadata = .absent then .error (.fault .noMetadata)
      else if reading.surplus.isEmpty then .ok reading.arguments
      else .error (.fault (.unrecognized reading.surplus))

end ZodSchemas.CommandLine
