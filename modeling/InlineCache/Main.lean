import InlineCache.CommandLine.Program

/-! The command line: reads the files that a command needs, and prints what it gives. -/
namespace InlineCache.CommandLine

/-- Reads a file, or tells why it cannot be read. A path through something that is no directory
fails when the file is opened, and that error names the path; a directory fails when it is read. -/
def readFile (path : String) : IO (Except FileError String) := do
  try
    match String.fromUTF8? (← IO.FS.readBinFile path) with
    | some text => return .ok text
    | none => return .error .notText
  catch
    | .noFileOrDirectory .. => return .error .missing
    | .inappropriateType (some _) .. => return .error .notDirectory
    | .inappropriateType none .. => return .error .isDirectory
    | e => return .error (.other (toString e))

/-- Runs the program and prints its output. -/
def execute (args : List String) : IO UInt32 := do
  let paths := match read false args with
    | .perform command => command.files
    | _ => []
  let texts ← paths.mapM fun path => do
    return (path, ← readFile path)
  let file (path : String) : Except FileError String :=
    ((texts.find? fun t => t.1 == path).map Prod.snd).getD (.error .missing)
  let result := program file args
  (← IO.getStdout).putStr result.stdout
  (← IO.getStderr).putStr result.stderr
  return UInt32.ofNat result.status

end InlineCache.CommandLine

def main (args : List String) : IO UInt32 := InlineCache.CommandLine.execute args
