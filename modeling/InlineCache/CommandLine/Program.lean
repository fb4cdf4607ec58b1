import InlineCache.CommandLine.Arguments
import InlineCache.Scenario.Loading
import InlineCache.Scenario.Render

/-! What the program does with its arguments and files: the text it prints, the errors it reports
and its exit status. -/
namespace InlineCache.CommandLine

structure Exit where
  status : Nat := 0
  stdout : String := ""
  stderr : String := ""
  deriving DecidableEq, Repr

/-- Puts blanks at the start of every line but the first. -/
def hang (width : Nat) (text : String) : String :=
  ("\n" ++ String.ofList (List.replicate width ' ')).intercalate (text.splitOn "\n")

/-- A cause on lines of its own; several causes are numbered. -/
def causeLine (number : Option Nat) (text : String) : String :=
  match number with
  | none => "    " ++ hang 4 text
  | some n =>
    let digits := toString n
    String.ofList (List.replicate (5 - digits.length) ' ') ++ digits ++ ": " ++ hang 7 text

/-- An error report: the outermost text, then its causes. -/
def errorReport : List String → String
  | [] => "Error: \n"
  | [text] => "Error: " ++ text ++ "\n"
  | [text, cause] => "Error: " ++ text ++ "\n\nCaused by:\n" ++ causeLine none cause ++ "\n"
  | text :: causes =>
    "Error: " ++ text ++ "\n\nCaused by:\n" ++
      "\n".intercalate (causes.zipIdx.map fun c => causeLine (some c.2) c.1) ++ "\n"

def failed (messages : List String) : Exit := { status := 1, stderr := errorReport messages }

/-- The error that steps did not have the expected results. -/
def mismatchMessage (n : Nat) : String :=
  toString n ++ " step(s) did not match their expectation"

def runScenario (path : String) (s : Scenario) (c : Config) (json : Bool) : Exit :=
  match Scenario.run s c with
  | .error fault => failed (("failed to run " ++ path) :: fault.messages)
  | .ok report =>
    let stdout := if json then report.json.pretty ++ "\n" else report.text
    if report.mismatches = 0 then { stdout }
    else { failed [mismatchMessage report.mismatches] with stdout }

def checkScenario (path : String) (s : Scenario) : Exit :=
  match Scenario.check s with
  | .error fault => failed (("invalid scenario " ++ path) :: fault.messages)
  | .ok n =>
    { stdout := "ok: " ++ toString n.classes ++ " classes, " ++ toString n.methods ++
        " methods, " ++ toString n.sites ++ " sites, " ++ toString n.steps ++ " steps\n" }

def Command.files : Command → List String
  | run scenario config _ _ => scenario :: config.toList
  | check scenario => [scenario]

/-- Performs a command. The scenario is read before the settings. -/
def Command.perform (file : String → Except FileError String) : Command → Exit
  | run path config bound json =>
    match Scenario.load path (file path) with
    | .error e => failed e.messages
    | .ok s =>
      match config with
      | none => runScenario path s (Scenario.resolveConfig s none bound) json
      | some configPath =>
        match Config.load configPath (file configPath) with
        | .error e => failed e.messages
        | .ok c => runScenario path s (Scenario.resolveConfig s (some c) bound) json
  | check path =>
    match Scenario.load path (file path) with
    | .error e => failed e.messages
    | .ok s => checkScenario path s

def usageText : String :=
  "Usage: sendcache [--trace <FILTER>] run <SCENARIO> [--config <FILE>] " ++
    "[--max-chain-length <N>] [--json]\n" ++
    "       sendcache [--trace <FILTER>] check <SCENARIO>\n"

/-- The program, with its files as a function. -/
def program (file : String → Except FileError String) (args : List String) : Exit :=
  match read false args with
  | .perform command => command.perform file
  | .version => { stdout := "sendcache 0.1.0\n" }
  | .help => { stdout := usageText }
  | .usage => { status := 2, stderr := usageText }

end InlineCache.CommandLine
