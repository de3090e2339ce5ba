import LSystem.Demo.Catalog
import LSystem.Demo.Report
import LSystem.Random.Seeded

namespace LSystem

/-!
# The command line

The arguments of the program are read from left to right.  Asking for help or
for the version is answered as soon as it is read, and the first fault ends the
reading.
-/

/-! ## Options -/

/-- The options that take a value. -/
inductive Setting where
  | generations
  | seed
  | indent
  | chunk
deriving DecidableEq

/-- The name by which messages call an option, however it was written. -/
def Setting.name : Setting → String
  | .generations => "--generations"
  | .seed => "--seed"
  | .indent => "--indent"
  | .chunk => "--chunk"

/-- What an argument in the place of an option can be. -/
inductive Flag where
  | help
  | version
  | color (wanted : Bool)
  | setting (setting : Setting)

/-- Reads the name of an option, long or short.  Names are never abbreviated. -/
def Flag.ofName? : String → Option Flag
  | "-h" => some .help
  | "--help" => some .help
  | "-V" => some .version
  | "--version" => some .version
  | "--color" => some (.color true)
  | "--no-color" => some (.color false)
  | "-n" => some (.setting .generations)
  | "--generations" => some (.setting .generations)
  | "--seed" => some (.setting .seed)
  | "--indent" => some (.setting .indent)
  | "--chunk" => some (.setting .chunk)
  | _ => none

/-- How a grammar is to be run.  What is left open is up to the grammar or the
surroundings. -/
structure Preferences where
  generations : Option Nat
  seed : Option Nat
  indent : Option String
  chunk : Option Nat
  color : Bool
deriving DecidableEq

/-- What has been asked for so far. -/
structure Choices extends Preferences where
  grammar : Option String
deriving DecidableEq

/-- Nothing has been asked for yet. -/
def Choices.initial (color : Bool) : Choices := ⟨⟨none, none, none, none, color⟩, none⟩

/-- A run of one grammar. -/
structure Configuration extends Preferences where
  grammar : String
deriving DecidableEq

/-- What the arguments ask for. -/
inductive Request where
  | help
  | version
  | run (configuration : Configuration)
deriving DecidableEq

/-- Why the arguments cannot be followed. -/
inductive UsageError where
  | missingValue (setting : Setting)
  | invalidNumber (setting : Setting) (value : String)
  | emptyChunk
  | unknownOption (argument : String)
  | repeatedGrammar
  | missingGrammar
  | unknownGrammar (name : String)
deriving DecidableEq

/-! ## Reading -/

/-- The largest number that an option takes. -/
def largestNumber : Nat := Nat.pow 2 64 - 1

/-- Reads decimal digits, with one plus sign in front if need be. -/
def readNumber? (text : String) : Option Nat :=
  let digits :=
    match text.toList with
    | '+' :: digits => digits
    | digits => digits
  if digits.isEmpty || !digits.all Char.isDigit then none
  else
    let number := digits.foldl (fun number digit => 10 * number + (digit.toNat - '0'.toNat)) 0
    if number ≤ largestNumber then some number else none

/-- Takes a long option apart at its first equals sign. -/
def splitInline (argument : String) : String × Option String :=
  let characters := argument.toList
  let flag := characters.takeWhile (· ≠ '=')
  match characters.dropWhile (· ≠ '='), flag with
  | _ :: value, '-' :: '-' :: _ => (String.ofList flag, some (String.ofList value))
  | _, _ => (argument, none)

namespace Choices

/-- Reads the value of an option that takes a number. -/
def number (setting : Setting) (value : String) : Except UsageError Nat :=
  match readNumber? value with
  | some number => .ok number
  | none => .error (.invalidNumber setting value)

/-- Takes the value of an option over.  A later value replaces an earlier one. -/
def assign (setting : Setting) (value : String) (choices : Choices) : Except UsageError Choices :=
  match setting with
  | .generations =>
      (number setting value).map fun number => { choices with generations := some number }
  | .seed => (number setting value).map fun number => { choices with seed := some number }
  | .indent => .ok { choices with indent := some value }
  | .chunk =>
      (number setting value).bind fun number =>
        if number = 0 then .error .emptyChunk else .ok { choices with chunk := some number }

/-- Everything has been read.  A grammar is the one thing that must be given. -/
def complete (choices : Choices) : Except UsageError Request :=
  match choices.grammar with
  | none => .error .missingGrammar
  | some grammar => .ok (.run ⟨choices.toPreferences, grammar⟩)

/-- Reads arguments.  The value of an option stands behind an equals sign or is
the next argument, whatever that looks like. -/
def read (choices : Choices) : List String → Except UsageError Request
  | [] => choices.complete
  | argument :: rest =>
      let (name, inlined) := splitInline argument
      match Flag.ofName? name with
      | some .help => .ok .help
      | some .version => .ok .version
      | some (.color wanted) => read { choices with color := wanted } rest
      | some (.setting setting) =>
          match inlined, rest with
          | some value, rest =>
              match choices.assign setting value with
              | .error error => .error error
              | .ok choices => read choices rest
          | none, value :: rest =>
              match choices.assign setting value with
              | .error error => .error error
              | .ok choices => read choices rest
          | none, [] => .error (.missingValue setting)
      | none =>
          if argument.startsWith "-" then .error (.unknownOption argument)
          else if choices.grammar.isSome then .error .repeatedGrammar
          else read { choices with grammar := some argument } rest

end Choices

/-- Reads the arguments of the program.  Colours are wanted by default if
`terminal` says that somebody is watching. -/
def Request.ofArguments (terminal : Bool) (arguments : List String) : Except UsageError Request :=
  (Choices.initial terminal).read arguments

/-! ## Answering -/

/-- How a run of the program ends: its exit code and what it has written. -/
structure Outcome where
  code : Nat
  output : String
  errors : String

/-- What a run depends on besides its arguments. -/
structure Surroundings (m : Type → Type) where
  terminal : Bool
  stopwatch : Stopwatch m
  writeTime : Nat → String
  /-- The seed of a run that has not been given one. -/
  seed : UInt64

namespace CommandLine

def versionText : String := "lindenmayer 0.1.0"

/-- The line of the help text about one grammar.  Names are padded to a column. -/
def demoLine (demo : Demo) : String :=
  let padding := String.ofList (List.replicate (10 - demo.name.length) ' ')
  "  " ++ demo.name ++ padding ++ " " ++ demo.summary ++
    s!" (default {demo.generations} generations)"

/-- The answer to a request for help. -/
def helpText : String :=
  "\n".intercalate
    ([versionText, "",
      "Run a built-in L-system and report what each generation did.", "",
      "Usage:",
      "  lindenmayer [OPTIONS] <grammar>", "",
      "Grammars:"] ++
    Catalog.demos.map demoLine ++
    ["",
      "Options:",
      "  -n, --generations <n>      Number of passes. Default: per grammar.",
      "  --seed <n>                 Seed for stochastic rules. Default: random.",
      "  --indent <text>            Indent nested branches in the dump by <text>.",
      "  --chunk <n>                Drive generation and rendering <n> elements at a time.",
      "  --color                    Force ANSI color output.",
      "  --no-color                 Disable ANSI color output.",
      "  -h, --help                 Show this help message.",
      "  -V, --version              Print version information.", "",
      "Environment:",
      "  LINDENMAYER_LOG            tracing filter, e.g. lindenmayer=debug. Default: warn.",
      "  LINDENMAYER_DEBUG_RULES    Set to 1 to trace every rule firing.", "",
      "Exit codes:",
      "  0  Success.",
      "  1  Grammar failed to compile or run.",
      "  2  Invalid arguments.", ""])

end CommandLine

/-- The text of an error.  When no known grammar has been given the help follows. -/
def UsageError.message : UsageError → String
  | .missingValue setting => "error: " ++ setting.name ++ " expects a value"
  | .invalidNumber setting value =>
      "error: invalid " ++ setting.name ++ " '" ++ value ++ "' (expected a non-negative integer)"
  | .emptyChunk => "error: --chunk must be at least 1"
  | .unknownOption argument => "error: unknown option '" ++ argument ++ "'"
  | .repeatedGrammar => "error: grammar provided multiple times"
  | .missingGrammar => "error: no grammar provided\n\n" ++ CommandLine.helpText
  | .unknownGrammar name => "error: unknown grammar '" ++ name ++ "'\n\n" ++ CommandLine.helpText

namespace CommandLine

/-- Ends with an answer. -/
def success (text : String) : Outcome := ⟨0, text, ""⟩

/-- Ends because the grammar could not be run. -/
def failure (text : String) : Outcome := ⟨1, "", "error: " ++ text ++ "\n"⟩

/-- Ends because the arguments make no sense. -/
def misuse (error : UsageError) : Outcome := ⟨2, "", error.message ++ "\n"⟩

variable {m : Type → Type} [Monad m]

/-- Runs a session on a grammar of the catalog and reports on it. -/
def present (surroundings : Surroundings m) (configuration : Configuration) (demo : Demo) :
    m Outcome := do
  let grammar := demo.grammar
  let seed := (configuration.seed.map UInt64.ofNat).getD surroundings.seed
  match Development.create grammar.start grammar.rules grammar.ignore Turtle.actions Turtle.home
      (.seeded seed) with
  | .error error => pure (failure error.message)
  | .ok system =>
      let generations := configuration.generations.getD demo.generations
      match ← Session.run surroundings.stopwatch configuration.chunk generations system with
      | .error fault => pure (failure fault.message)
      | .ok session =>
          let report : Report :=
            ⟨demo.name, demo.summary, session, configuration.indent, configuration.color,
              surroundings.writeTime⟩
          pure (success report.text)

/-- The program as a whole. -/
def run (surroundings : Surroundings m) (arguments : List String) : m Outcome :=
  match Request.ofArguments surroundings.terminal arguments with
  | .error error => pure (misuse error)
  | .ok .help => pure (success (helpText ++ "\n"))
  | .ok .version => pure (success (versionText ++ "\n"))
  | .ok (.run configuration) =>
      match Catalog.find? configuration.grammar with
      | none => pure (misuse (.unknownGrammar configuration.grammar))
      | some demo => present surroundings configuration demo

end CommandLine
end LSystem
