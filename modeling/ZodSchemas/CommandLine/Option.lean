import ZodSchemas.Metadata.Vocabulary
import ZodSchemas.Text.Literal

namespace ZodSchemas.CommandLine

/-!
# Options

An option has one or more spellings, a short one with one hyphen and a long one
with two, and may take a value.
-/

open Metadata

/-- An option of the command. -/
inductive CommandOption where
  | help
  | version
  | metadata
  | output
  | validateOnly
  | dryRun
  | generateSelect
  | generateInclude
  | provider
  | workers
  | manifest
  | clean
  | noStrict
  | failOnWarnings
  | verbose
  | quiet
deriving Repr, DecidableEq

namespace CommandOption

/-- Every option, in the order in which messages list them. -/
def all : List CommandOption :=
  [.help, .version, .metadata, .output, .validateOnly, .dryRun, .generateSelect, .generateInclude,
    .provider, .workers, .manifest, .clean, .noStrict, .failOnWarnings, .verbose, .quiet]

def spellings : CommandOption → List String
  | .help => ["-h", "--help"]
  | .version => ["--version"]
  | .metadata => ["-m", "--metadata"]
  | .output => ["-o", "--output"]
  | .validateOnly => ["--validate-only"]
  | .dryRun => ["--dry-run"]
  | .generateSelect => ["--generate-select"]
  | .generateInclude => ["--generate-include"]
  | .provider => ["--provider"]
  | .workers => ["--workers"]
  | .manifest => ["--manifest"]
  | .clean => ["--clean"]
  | .noStrict => ["--no-strict"]
  | .failOnWarnings => ["--fail-on-warnings"]
  | .verbose => ["-v", "--verbose"]
  | .quiet => ["-q", "--quiet"]

def takesValue : CommandOption → Bool
  | .metadata | .output | .provider | .workers => true
  | .help | .version | .validateOnly | .dryRun | .generateSelect | .generateInclude | .manifest
  | .clean | .noStrict | .failOnWarnings | .verbose | .quiet => false

/-- The name under which messages mention an option. -/
def title (option : CommandOption) : String :=
  "/".intercalate option.spellings

def table : List (String × CommandOption) :=
  all.flatMap fun option => option.spellings.map fun spelling => (spelling, option)

def spelled? (spelling : String) : Option CommandOption :=
  table.lookup spelling

/-- The spellings that start with a text, with their options. -/
def spelledFrom (start : String) : List (String × CommandOption) :=
  table.filter fun entry => start.toList.isPrefixOf entry.1.toList

end CommandOption

/-- What is wrong with the words of a command. -/
inductive UsageFault where
  | ambiguous (word : String) (matches_ : List String)
  | noValue (option : CommandOption)
  | extraValue (option : CommandOption) (value : String)
  | notInteger (option : CommandOption) (value : String)
  | notChoice (option : CommandOption) (value : String) (choices : List String)
  | noMetadata
  | unrecognized (words : List String)
deriving Repr, DecidableEq

namespace UsageFault

def aboutOption (option : CommandOption) (sentence : String) : String :=
  "argument " ++ option.title ++ ": " ++ sentence

def message : UsageFault → String
  | .ambiguous word found =>
      "ambiguous option: " ++ word ++ " could match " ++ ", ".intercalate found
  | .noValue option => aboutOption option "expected one argument"
  | .extraValue option value =>
      aboutOption option ("ignored explicit argument " ++ Text.literal value)
  | .notInteger option value => aboutOption option ("invalid int value: " ++ Text.literal value)
  | .notChoice option value choices =>
      aboutOption option ("invalid choice: " ++ Text.literal value ++ " (choose from "
        ++ ", ".intercalate (choices.map Text.literal) ++ ")")
  | .noMetadata => "the following arguments are required: " ++ CommandOption.metadata.title
  | .unrecognized words => "unrecognized arguments: " ++ " ".intercalate words

def line (fault : UsageFault) : String :=
  "zodgen: error: " ++ fault.message

end UsageFault

end ZodSchemas.CommandLine
