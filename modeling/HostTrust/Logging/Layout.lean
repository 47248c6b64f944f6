/-
HostTrust.Logging.Layout — loggers and the files that they write to.

Every entry of the settings has a file, an appender that writes to it, and a
logger; the entry for all modules is the root logger. A logger other than the
root hands its messages to nobody else. Files and the directories above them
are made before the names of the loggers are looked at.
-/
import HostTrust.Files.Path
import HostTrust.Logging.Level
import HostTrust.Logging.Settings

namespace HostTrust

/-- A logger for some modules. -/
structure ModuleLogger where
  modules : String
  level : LogLevel
  /-- Whether messages also go where those of the modules around go. -/
  additive : Bool
  appenders : List String
  deriving DecidableEq, Repr

/-- Loggers and appenders, by name. -/
structure LogLayout where
  appenders : List String
  loggers : List ModuleLogger
  rootLevel : LogLevel
  rootAppenders : List String
  deriving DecidableEq, Repr

/-- The appender of an entry. -/
def LogEntry.appender (e : LogEntry) : String := e.modules ++ "_appender"

def LogEntry.logger (e : LogEntry) : ModuleLogger :=
  ⟨e.modules, .ofText e.level, false, [e.appender]⟩

namespace LogLayout

/-- The loggers that settings describe. -/
def ofSettings (s : LogSettings) : LogLayout where
  appenders := s.entries.map LogEntry.appender
  loggers := (s.entries.filter (!·.isRoot)).map LogEntry.logger
  rootLevel := (s.root?.map fun e => LogLevel.ofText e.level).getD .info
  rootAppenders := s.root?.toList.map LogEntry.appender

/-- Whether characters go on as a path of names with two colons in between; `colons` stand right
before them. -/
def isModulePath (colons : Nat) : List Char → Bool
  | [] => colons = 0
  | c :: rest =>
    if c = ':' then colons < 2 && isModulePath (colons + 1) rest
    else (colons = 0 || colons = 2) && isModulePath 0 rest

/-- Whether no name stands for two things and every logger names modules. -/
def isConsistent (l : LogLayout) : Bool :=
  l.appenders.Nodup && (l.loggers.map (·.modules)).Nodup &&
    l.loggers.all fun g => !g.modules.isEmpty && isModulePath 0 g.modules.toList

/-- The level of the logger that logs most. -/
def greatestLevel (l : LogLayout) : LogLevel :=
  l.loggers.foldl (fun level g => level.max g.level) l.rootLevel

/-- Makes the file of an entry. -/
def openEntry {m : Type → Type} [Monad m] (w : Workspace m) (output : String) (e : LogEntry) :
    ExceptT LogError m Unit := do
  let directory := Path.join output e.directory
  (w.makeDirectories directory).adapt (.noDirectory directory)
  (w.openLog (Path.join directory e.fileName)).adapt .noFile

/-- Makes the files of all entries below a directory, and the loggers. -/
def build {m : Type → Type} [Monad m] (w : Workspace m) (output : String) (s : LogSettings) :
    ExceptT LogError m LogLayout := do
  s.entries.forM (openEntry w output)
  let l := ofSettings s
  if l.isConsistent then return l else throw .rejected

end LogLayout

end HostTrust
