/-
HostTrust.Logging — logging as a part of a running program.

Logging is started at most once. An attempt that fails leaves it as it was;
after it has started, every further attempt fails before it looks at anything.
-/
import HostTrust.Environment
import HostTrust.Logging.Layout

namespace HostTrust

/-- Logging in a running program: the layout that it was started with, if it was. -/
structure Logging where
  layout : Option LogLayout
  deriving DecidableEq, Repr

/-- The directory that log directories are made in: the one that the environment names, else the
working directory. -/
def Workspace.logOutput {m : Type → Type} [Monad m] (w : Workspace m) : m String := do
  return (← w.resolve? "LOG_OUTPUT_DIR").getD "."

namespace Logging

/-- Before logging is started. -/
def off : Logging := ⟨none⟩

def isStarted (l : Logging) : Bool := l.layout.isSome

/-- The greatest level that is logged anywhere. -/
def level (l : Logging) : LogLevel := (l.layout.map (·.greatestLevel)).getD .off

/-- Starts logging with settings that are computed only if it has not started. -/
def startWith {m : Type → Type} [Monad m] (w : Workspace m)
    (settings : ExceptT LogError m LogSettings) (l : Logging) : ExceptT LogError m Logging := do
  if l.isStarted then throw .alreadyStarted
  let settings ← settings
  let layout ← LogLayout.build w (← w.logOutput) settings
  return ⟨some layout⟩

/-- Starts logging. -/
def start {m : Type → Type} [Monad m] (w : Workspace m) (settings : LogSettings) :
    Logging → ExceptT LogError m Logging :=
  startWith w (pure settings)

/-- Starts logging with the settings in a file. -/
def startFromFile {m : Type → Type} [Monad m] (w : Workspace m) (path : String) :
    Logging → ExceptT LogError m Logging :=
  startWith w (LogSettings.load w path)

/-- Starts logging with the settings in a file, unless it has started. -/
def ensureStarted {m : Type → Type} [Monad m] (w : Workspace m) (path : String) (l : Logging) :
    ExceptT LogError m Logging :=
  if l.isStarted then return l else l.startFromFile w path

end Logging

end HostTrust
