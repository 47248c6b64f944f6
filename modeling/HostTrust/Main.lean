/-
HostTrust.Main — the command line program.

The report is printed as JSON. The exit status is 0 if every host is trusted,
1 if one is not, and 2 if there is no report.
-/
import HostTrust.Command.Execution
import HostTrust.Json.Pretty
import Std.Time.DateTime.Timestamp

namespace HostTrust

/-- The cause of a failed operation on files. -/
def OsError.ofIo : IO.Error → OsError
  | .noFileOrDirectory _ _ _ => .notFound
  | .alreadyExists _ _ _ => .exists
  | .inappropriateType _ code _ => if code = 21 then .isDirectory else .notDirectory
  | e => .other (toString e)

/-- An operation on files that may fail. -/
def attempt {α : Type} (act : IO α) : ExceptT OsError IO α :=
  ExceptT.mk do
    match ← act.toBaseIO with
    | .ok a => return .ok a
    | .error e => return .error (.ofIo e)

/-- Whether there is a directory of this name. An attempt to make it under the name of itself that
it holds then fails because it exists. -/
def holdsItself (path : String) : IO Bool := do
  match ← (IO.FS.createDir (path ++ "/.")).toBaseIO with
  | .error (.alreadyExists _ _ _) => return true
  | _ => return false

/-- The first content that can be read in some directories. -/
def firstReadable (name : String) : List Path.Names → IO (Option Bytes)
  | [] => return none
  | directory :: rest => do
    try return some (← IO.FS.readBinFile (Path.join (Path.ofNames directory) name)).toList
    catch _ => firstReadable name rest

/-- The files and the environment that the program runs in. -/
def Workspace.system : Workspace IO where
  read path := do return (← attempt (IO.FS.readBinFile path)).toList
  makeDirectory path := attempt (IO.FS.createDir path)
  isDirectory path := holdsItself path
  makeFile path := do let _ ← attempt (IO.FS.Handle.mk path .append)
  findUpward name := do
    let here := Path.names (← IO.currentDir).toString
    firstReadable name (Path.ancestors here ++ [[""]])
  environment name := IO.getEnv name

def UsageError.text : UsageError → String
  | .help | .noArguments =>
    "Flavor based host trust verification\n\n" ++
    "Usage: trust_cli [OPTIONS] <COMMAND>\n\n" ++
    "Commands:\n" ++
    "  verify        Verify one host manifest against a set of flavors\n" ++
    "                -m, --manifest <MANIFEST>   Host manifest JSON file\n" ++
    "                -f, --flavors <FLAVORS>     Signed flavor JSON file\n" ++
    "                    --skip-signature        Do not verify flavor signatures\n" ++
    "  verify-hosts  Verify several host manifests against the same flavors\n" ++
    "                -m, --manifests <MANIFESTS>...  Host manifest JSON files\n" ++
    "                -f, --flavors <FLAVORS>         Signed flavor JSON file\n" ++
    "  help          Print this message\n\n" ++
    "Options:\n" ++
    "  -c, --config <CONFIG>  Verifier configuration file [default: trust_cli.yaml]\n" ++
    "  -h, --help             Print help\n" ++
    "  -V, --version          Print version"
  | .version => "trust_cli 0.1.0"
  | .missingArgument => "error: a required argument is missing"
  | .missingCommand => "error: a command is required but none was given"
  | .unknownArgument => "error: unexpected argument"
  | .unknownCommand => "error: unrecognized command"
  | .repeated => "error: an argument cannot be used multiple times"
  | .invalidValue => "error: a value is required but none was given"
  | .tooManyValues => "error: unexpected value for an argument that takes none"

/-- Runs the program with the words of a command line. -/
def runProgram (arguments : List String) : IO UInt32 := do
  match Invocation.ofArguments arguments with
  | .error e =>
    if e = .help ∨ e = .version then
      IO.println e.text
      return 0
    else
      IO.eprintln e.text
      return 2
  | .ok invocation =>
    let now ← Std.Time.Timestamp.now
    match ← invocation.run Workspace.system now.toSecondsSinceUnixEpoch.val .off with
    | .error e =>
      IO.eprintln e.message
      return 2
    | .ok (finding, _) =>
      IO.println finding.toJson.pretty
      return if finding.trusted then 0 else 1

end HostTrust

def main (arguments : List String) : IO UInt32 := HostTrust.runProgram arguments
