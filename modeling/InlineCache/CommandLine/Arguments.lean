import InlineCache.Decimal.Numeral

/-! The arguments of the program. They are read from left to right: a request for help or for the
version is answered where it stands, and the first mistake before it is an error. -/
namespace InlineCache.CommandLine

/-- What is to be done with a scenario file. -/
inductive Command where
  | run (scenario : String) (config : Option String) (bound : Option Nat) (json : Bool)
  | check (scenario : String)
  deriving DecidableEq, Repr

inductive Request where
  | perform (command : Command)
  | version
  | help
  | usage
  deriving DecidableEq, Repr

/-- What a subcommand was given so far. The filter for traces may be given once before the
subcommand and once after it. -/
structure Given where
  file : Option String := none
  config : Option String := none
  bound : Option Nat := none
  json : Bool := false
  trace : Bool := false
  deriving DecidableEq, Repr

/-- The subcommands that take a file. -/
inductive Verb where
  | run
  | check
  deriving DecidableEq, Repr

/-- The options that take a value. -/
inductive Valued where
  | trace
  | config
  | bound
  deriving DecidableEq, Repr

/-- A number of nodes: digits, perhaps behind a plus, of at most 64 bits. -/
def boundOfChars? (cs : List Char) : Option Nat :=
  let ds := match cs with
    | '+' :: r => r
    | r => r
  if Decimal.isDigits ds then (some (Decimal.natOfDigits ds)).filter Decimal.fitsUnsigned else none

/-- Whether an argument cannot be a value of its own, because it looks like an option. -/
def looksLikeOption (arg : String) : Bool :=
  match arg.toList with
  | '-' :: _ :: _ => true
  | _ => false

/-- The name and the attached value of a long option. -/
def splitOption (arg : String) : String × Option String :=
  let cs := arg.toList
  match cs.dropWhile (· ≠ '=') with
  | _ :: value => (String.ofList (cs.takeWhile (· ≠ '=')), some (String.ofList value))
  | [] => (arg, none)

namespace Given

/-- Takes the file; there is one, and its name is not empty. -/
def setFile (g : Given) (name : String) : Option Given :=
  if g.file.isSome || name.isEmpty then none else some { g with file := some name }

/-- Takes the value of an option, which may not be given twice. -/
def set (g : Given) (o : Valued) (value : String) : Option Given :=
  match o with
  | .trace => if g.trace then none else some { g with trace := true }
  | .config =>
    if g.config.isSome || value.isEmpty then none else some { g with config := some value }
  | .bound =>
    if g.bound.isSome then none
    else (boundOfChars? value.toList).map fun n => { g with bound := some n }

/-- Takes the flag for JSON, which may not be given twice. -/
def setJson (g : Given) : Option Given := if g.json then none else some { g with json := true }

/-- The command that was given, if nothing is missing. -/
def command (g : Given) : Verb → Request
  | .run => match g.file with
    | some f => .perform (.run f g.config g.bound g.json)
    | none => .usage
  | .check => match g.file with
    | some f => .perform (.check f)
    | none => .usage

end Given

/-- The option that takes a value under a name, for a subcommand. -/
def Verb.valued? : Verb → String → Option Valued
  | _, "--trace" => some .trace
  | .run, "--config" => some .config
  | .run, "--max-chain-length" => some .bound
  | _, _ => none

/-- Reads what follows two dashes: only files. -/
def readFiles (verb : Verb) (g : Given) : List String → Request
  | [] => g.command verb
  | arg :: rest => match g.setFile arg with
    | some g => readFiles verb g rest
    | none => .usage

def readVerb (verb : Verb) (g : Given) : List String → Request
  | [] => g.command verb
  | "--" :: rest => readFiles verb g rest
  | arg :: rest =>
    if arg = "--help" ∨ arg = "-h" then .help
    else if arg = "--json" ∧ verb = .run then
      match g.setJson with
      | some g => readVerb verb g rest
      | none => .usage
    else if looksLikeOption arg then
      let (name, attached) := splitOption arg
      match verb.valued? name, attached, rest with
      | some o, some value, rest => match g.set o value with
        | some g => readVerb verb g rest
        | none => .usage
      | some o, none, value :: rest =>
        if looksLikeOption value then .usage
        else match g.set o value with
          | some g => readVerb verb g rest
          | none => .usage
      | _, _, _ => if arg.toList.take 2 = ['-', 'h'] then .help else .usage
    else match g.setFile arg with
      | some g => readVerb verb g rest
      | none => .usage

/-- Reads the subcommands that help is asked for. -/
def readHelp : List String → Request
  | [] | ["run"] | ["check"] | ["help"] => .help
  | _ => .usage

/-- Reads all arguments; `traced` tells whether the filter for traces was given already. -/
def read (traced : Bool) : List String → Request
  | [] => .usage
  | "run" :: rest => readVerb .run {} rest
  | "check" :: rest => readVerb .check {} rest
  | "help" :: rest => readHelp rest
  | "--version" :: _ => .version
  | "--help" :: _ => .help
  | "--trace" :: value :: rest =>
    if traced || looksLikeOption value then .usage else read true rest
  | arg :: rest =>
    let (name, attached) := splitOption arg
    if name = "--trace" ∧ attached.isSome ∧ !traced then read true rest
    else if arg.toList.take 2 = ['-', 'V'] then .version
    else if arg.toList.take 2 = ['-', 'h'] then .help
    else .usage

example : read false ["run", "s.toml", "--max-chain-length", "2", "--json"] =
    .perform (.run "s.toml" none (some 2) true) := by decide +kernel
example : read false ["check", "s.toml", "--json"] = .usage := by decide +kernel

end InlineCache.CommandLine
