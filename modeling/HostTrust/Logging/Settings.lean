/-
HostTrust.Logging.Settings — what is logged where.

Each entry sends the messages of some modules to a file of its own. The entry
`root` is for all modules that have none.
-/
import HostTrust.Json.Basic
import HostTrust.Json.Misfit
import HostTrust.Workspace
import HostTrust.Yaml.Reader

namespace HostTrust

/-- Why logging cannot be started. -/
inductive LogError where
  | unreadable (path : String) (e : OsError)
  | malformed (path : String)
  /-- Two entries have one name, or a name is no path of modules. -/
  | rejected
  | noDirectory (path : String) (e : OsError)
  | noFile (e : OsError)
  | alreadyStarted
  /-- The logger of the process is set, although the program has not recorded it. -/
  | loggerTaken
  deriving DecidableEq, Repr

/-- What an error is about. -/
inductive LogError.Kind where
  | settings
  | files
  | start
  deriving DecidableEq, Repr

namespace LogError

def kind : LogError → Kind
  | .unreadable _ _ | .malformed _ | .rejected => .settings
  | .noDirectory _ _ | .noFile _ => .files
  | .alreadyStarted | .loggerTaken => .start

def message : LogError → String
  | .unreadable path e => "Log config error: Failed to read " ++ path ++ ": " ++ e.message
  | .malformed path => "Log config error: Failed to parse " ++ path ++ ": " ++ withheld
  | .rejected => withheld
  | .noDirectory path e =>
    "Log io error: Failed to create log directory " ++ path ++ ": " ++ e.message
  | .noFile e => "Log io error: Failed to open log file: " ++ e.message
  | .alreadyStarted => "Log init error: Logger already initialized"
  | .loggerTaken => "Log init error: " ++ withheld

end LogError

/-- The log file of some modules. -/
structure LogEntry where
  /-- The modules: a path of names, or `root`. -/
  modules : String
  directory : String
  fileName : String
  /-- The size in bytes at which a file is put away. -/
  greatestSize : Nat
  /-- How many files that were put away are kept. -/
  kept : Nat
  level : String
  deriving DecidableEq, Repr

namespace LogEntry

/-- The entry name for all modules. -/
def rootName : String := "root"

def isRoot (e : LogEntry) : Bool := e.modules == rootName

/-- The entry that a mapping describes. -/
def ofNode? (n : Yaml.Node) : Option LogEntry := do
  let members ← n.members?
    ["path_prefix", "log_directory", "log_file_name", "max_file_size", "max_zip_count", "level"]
  return {
    modules := ← Yaml.required Yaml.Node.text? members "path_prefix"
    directory := ← Yaml.required Yaml.Node.text? members "log_directory"
    fileName := ← Yaml.required Yaml.Node.text? members "log_file_name"
    greatestSize := ← Yaml.required (Yaml.Node.natural? 64) members "max_file_size"
    kept := ← Yaml.required (Yaml.Node.natural? 32) members "max_zip_count"
    level := ← Yaml.required Yaml.Node.text? members "level" }

def toJson (e : LogEntry) : Json :=
  .object [("path_prefix", .text e.modules), ("log_directory", .text e.directory),
    ("log_file_name", .text e.fileName), ("max_file_size", .nat e.greatestSize),
    ("max_zip_count", .nat e.kept), ("level", .text e.level)]

end LogEntry

/-- The log files. -/
structure LogSettings where
  entries : List LogEntry
  deriving DecidableEq, Repr

namespace LogSettings

/-- One file for all modules. -/
def rootOnly (fileName level : String) : LogSettings :=
  ⟨[⟨LogEntry.rootName, "logs", fileName, 10 * 1024 * 1024, 6, level⟩]⟩

/-- The settings that a text describes. -/
def ofText? (s : String) : Option LogSettings := do
  let members ← (← Yaml.read? s).members? ["loggers"]
  let items ← Yaml.required Yaml.Node.items? members "loggers"
  return ⟨← items.mapM LogEntry.ofNode?⟩

/-- The settings in a file. -/
def load {m : Type → Type} [Monad m] (w : Workspace m) (path : String) :
    ExceptT LogError m LogSettings := do
  let s ← (w.readText path).adapt (.unreadable path)
  match ofText? s with
  | some settings => return settings
  | none => throw (.malformed path)

def toJson (s : LogSettings) : Json :=
  .object [("loggers", .list (s.entries.map LogEntry.toJson))]

/-- The first entry whose name a module's path begins with. -/
def entryFor? (s : LogSettings) (path : String) : Option LogEntry :=
  s.entries.find? fun e => e.modules.toList.isPrefixOf path.toList

/-- The entry for all modules. -/
def root? (s : LogSettings) : Option LogEntry := s.entries.find? LogEntry.isRoot

end LogSettings

end HostTrust
