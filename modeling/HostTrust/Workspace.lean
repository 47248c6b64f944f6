/-
HostTrust.Workspace — what a run finds around it: files and environment
variables.

Everything that reads or writes files is a function of a workspace, in any
monad. A program runs it on the file system; a proof runs it on a tree of files
(`HostTrust.Files.Tree`).
-/
import HostTrust.Files.Path
import HostTrust.Text.Utf8

namespace HostTrust

/-- Why an operation on files fails. -/
inductive OsError where
  | notFound
  | exists
  | notDirectory
  | isDirectory
  | nameTooLong
  /-- The path holds a NUL character. -/
  | nulInName
  /-- The content is not UTF-8 text. -/
  | notText
  | other (reason : String)
  deriving DecidableEq, Repr

def OsError.message : OsError → String
  | .notFound => "No such file or directory (os error 2)"
  | .exists => "File exists (os error 17)"
  | .notDirectory => "Not a directory (os error 20)"
  | .isDirectory => "Is a directory (os error 21)"
  | .nameTooLong => "File name too long (os error 36)"
  | .nulInName => "file name contained an unexpected NUL byte"
  | .notText => "stream did not contain valid UTF-8"
  | .other reason => reason

/-- Files and environment variables. -/
structure Workspace (m : Type → Type) where
  /-- The content of a file. -/
  read : String → ExceptT OsError m Bytes
  /-- Makes a directory in one that is there. -/
  makeDirectory : String → ExceptT OsError m Unit
  isDirectory : String → m Bool
  /-- Makes an empty file in a directory that is there, unless the file is there. -/
  makeFile : String → ExceptT OsError m Unit
  /-- The content of the file of this name in the working directory or in the nearest directory
  above that has one. -/
  findUpward : String → m (Option Bytes)
  /-- The value of an environment variable. -/
  environment : String → m (Option String)

namespace Workspace

variable {m : Type → Type} [Monad m]

/-- The content of a text file. -/
def readText (w : Workspace m) (path : String) : ExceptT OsError m String := do
  match Text.decode? (← w.read path) with
  | some s => return s
  | none => throw .notText

/-- That a directory cannot be made does no harm if it is there. -/
def unlessThere (w : Workspace m) (path : String) (e : OsError) : ExceptT OsError m Unit := do
  if ← w.isDirectory path then return () else throw e

/-- Makes the first of some directories, each of which lies in the next. If the next is not there,
that is made before it. -/
def makeChain (w : Workspace m) : List Path.Names → ExceptT OsError m Unit
  | [] => return ()
  | names :: above =>
    let path := Path.ofNames names
    tryCatch (w.makeDirectory path) fun e =>
      if e = .notFound then do
        makeChain w above
        tryCatch (w.makeDirectory path) (w.unlessThere path)
      else w.unlessThere path e

/-- Makes a directory and those above it, as far as they are not there. -/
def makeDirectories (w : Workspace m) (path : String) : ExceptT OsError m Unit :=
  w.makeChain (Path.ancestors (Path.names path))

/-- Makes a file, unless it is there, and the directories above it. -/
def openLog (w : Workspace m) (path : String) : ExceptT OsError m Unit := do
  match Path.parent? (Path.names path) with
  | some above => w.makeChain (Path.ancestors above)
  | none => pure ()
  w.makeFile path

end Workspace

end HostTrust
