/-
HostTrust.Logging.Process — the cells of a process that logging is kept in.

All messages of a process go to one logger, which can be set once, and up to one
level, which is set right before it. Beside them the program records that it has
started logging, and it asks this record alone whether it has. So a call that
starts logging looks at the record, then finds settings and makes files, then
sets the level and the logger, and then writes the record. It can fail at each of
these steps, and what was done before stays.
-/
import HostTrust.Logging

namespace HostTrust

/-- The cells of a process that logging is kept in. -/
structure LogCells where
  /-- The logger that all messages go to, once one is set. -/
  logger : Option LogLayout
  /-- The level up to which messages go to it. -/
  level : LogLevel
  /-- What the program has recorded: the layout that it started logging with. -/
  record : Option LogLayout
  deriving DecidableEq, Repr

/-- A program that works on the cells. If it fails, they are as it has left them. -/
abbrev LogProgram (m : Type → Type) : Type → Type := ExceptT LogError (StateT LogCells m)

namespace LogCells

/-- Before anything is done about logging. -/
def fresh : LogCells := ⟨none, .off, none⟩

/-- Whether the program has started logging, as it knows. -/
def isStarted (c : LogCells) : Bool := c.record.isSome

end LogCells

namespace LogProgram

variable {m : Type → Type} [Monad m]

/-- Runs a program in a process. -/
def runOn {α : Type} (p : LogProgram m α) (c : LogCells) : m (Except LogError α × LogCells) :=
  p.run.run c

/-- A program that does not know the cells. -/
def outside {α : Type} (x : ExceptT LogError m α) : LogProgram m α :=
  ExceptT.mk (StateT.lift x.run)

/-- Fails if logging has started. -/
def ensureOff : LogProgram m Unit := do
  if (← get).isStarted then throw .alreadyStarted

/-- Sets the logger of the process, and the level before it. -/
def install (l : LogLayout) : LogProgram m Unit := do
  modify fun c => { c with level := l.greatestLevel }
  if (← get).logger.isSome then throw .loggerTaken
  modify fun c => { c with logger := some l }

/-- Records that logging has started. -/
def record (l : LogLayout) : LogProgram m Unit := do
  ensureOff
  modify fun c => { c with record := some l }

end LogProgram

/-- The layout that settings describe, with its files. -/
def LogSettings.layout {m : Type → Type} [Monad m] (w : Workspace m) (s : LogSettings) :
    ExceptT LogError m LogLayout := do
  LogLayout.build w (← w.logOutput) s

/-- A call that starts logging. -/
inductive StartCall where
  | withFile (path : String)
  | withSettings (s : LogSettings)
  /-- As a command does it, with the file that its settings name, unless logging has started. -/
  | ofCommand (file : Option String)
  deriving DecidableEq, Repr

namespace StartCall

variable {m : Type → Type} [Monad m]

/-- Starts logging with a layout, unless it has started before the layout is found. -/
def startWith (layout : ExceptT LogError m LogLayout) : LogProgram m Unit := do
  LogProgram.ensureOff
  let l ← LogProgram.outside layout
  LogProgram.install l
  LogProgram.record l

/-- The layout that the settings in a file describe, with its files. -/
def layoutIn (w : Workspace m) (path : String) : ExceptT LogError m LogLayout := do
  (← LogSettings.load w path).layout w

/-- What a call does. -/
def perform (w : Workspace m) : StartCall → LogProgram m Unit
  | .withFile path => startWith (layoutIn w path)
  | .withSettings s => startWith (s.layout w)
  | .ofCommand none => return ()
  | .ofCommand (some path) => do
    if (← get).isStarted then return () else startWith (layoutIn w path)

end StartCall

end HostTrust
