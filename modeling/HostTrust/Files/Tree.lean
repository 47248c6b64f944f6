/-
HostTrust.Files.Tree — a tree of files in memory, as a workspace.

A place in the tree is the list of names that lead to it from the working
directory. The working directory, those above it and the root are there; of
other directories and files there are those that the tree lists.
-/
import HostTrust.Files.Path
import HostTrust.Workspace

namespace HostTrust

/-- What stands at a place. -/
inductive FileEntry where
  | file (content : Bytes)
  | directory
  deriving DecidableEq, Repr

/-- The names from the working directory on; from the root if the first name is empty. -/
abbrev Place := List String

/-- Files and directories below the working directory. -/
structure FileTree where
  entries : List (Place × FileEntry)
  deriving Repr

namespace FileTree

def empty : FileTree := ⟨[]⟩

/-- What stands at a place. -/
def entry? (t : FileTree) (p : Place) : Option FileEntry :=
  if p = [""] ∨ p.all (· = "..") then some .directory else t.entries.lookup p

/-- The tree with one more entry. -/
def put (t : FileTree) (p : Place) (e : FileEntry) : FileTree := ⟨(p, e) :: t.entries⟩

/-- The place that a name leads to from a directory. -/
def follow (p : Place) (name : String) : Place :=
  if name = "" ∨ name = "." then p
  else if name = ".." then
    if p = [""] then p
    else if p.all (· = "..") then p ++ [".."]
    else p.dropLast
  else p ++ [name]

/-- Follows names from a place. Every name but the last must lead to a directory. -/
def walk (t : FileTree) (p : Place) : Path.Names → Except OsError Place
  | [] => return p
  | name :: rest =>
    match t.entry? p with
    | none => throw .notFound
    | some (.file _) => throw .notDirectory
    | some .directory =>
      if 255 < name.utf8ByteSize then throw .nameTooLong else t.walk (follow p name) rest

/-- The place that names lead to; there need be nothing. -/
def locate (t : FileTree) : Path.Names → Except OsError Place
  | [] => throw .notFound
  | "" :: rest => t.walk [""] rest
  | names => t.walk [] names

/-- The names of a path that can be asked for. -/
def namesOf (path : String) : Except OsError Path.Names :=
  if path.toList.contains '\x00' then throw .nulInName
  else if 4095 < path.utf8ByteSize then throw .nameTooLong
  else return Path.names path

def read (t : FileTree) (path : String) : Except OsError Bytes := do
  match t.entry? (← t.locate (← namesOf path)) with
  | none => throw .notFound
  | some .directory => throw .isDirectory
  | some (.file content) => return content

/-- Names without the empty ones at the end; the first name stays. -/
def dropSlashes : Path.Names → Path.Names
  | [] => []
  | first :: rest => first :: (rest.reverse.dropWhile (· = "")).reverse

/-- Makes a directory. -/
def makeDirectory (t : FileTree) (path : String) : Except OsError FileTree := do
  let p ← t.locate (dropSlashes (← namesOf path))
  if (t.entry? p).isSome then throw .exists else return t.put p .directory

/-- Whether a path leads to a directory. -/
def isDirectory (t : FileTree) (path : String) : Bool :=
  match (namesOf path).bind t.locate with
  | .ok p => t.entry? p == some .directory
  | .error _ => false

/-- Makes a file, unless it is there. -/
def makeFile (t : FileTree) (path : String) : Except OsError FileTree := do
  let names ← namesOf path
  let p ← t.locate (dropSlashes names)
  if names ≠ dropSlashes names then throw .isDirectory
  match t.entry? p with
  | none => return t.put p (.file [])
  | some .directory => throw .isDirectory
  | some (.file _) => return t

/-! ## The tree as a workspace -/

/-- A result that depends on the tree. -/
def look {α : Type} (f : FileTree → Except OsError α) : ExceptT OsError (StateM FileTree) α :=
  ExceptT.mk do return f (← get)

/-- A change of the tree; a change that fails leaves it as it was. -/
def change (f : FileTree → Except OsError FileTree) : ExceptT OsError (StateM FileTree) Unit := do
  set (← look f)

/-- The paths of everything below a directory, in order; those of directories end in a slash. -/
def listing (t : FileTree) (directory : Place) : List String :=
  let below := t.entries.filterMap fun (p, e) =>
    if directory.isPrefixOf p && p != directory then
      some ("/".intercalate (p.drop directory.length) ++
        match e with
        | .directory => "/"
        | .file _ => "")
    else none
  below.mergeSort fun a b => decide (a ≤ b)

/-- A tree with the given files, by their paths. -/
def ofFiles (files : List (String × Bytes)) : FileTree :=
  files.foldl (fun t (path, content) =>
    let names := Path.names path
    let directories := ((List.range names.length).map (names.take ·)).filter fun p =>
      (t.entry? p).isNone
    ⟨(names, .file content) :: directories.map (·, .directory) ++ t.entries⟩) empty

/-- A tree of files as a workspace with the given environment variables. -/
def workspace (known : List (String × String)) : Workspace (StateM FileTree) where
  read path := look (·.read path)
  makeDirectory path := change (·.makeDirectory path)
  isDirectory path := return (← get).isDirectory path
  makeFile path := change (·.makeFile path)
  findUpward name := do return ((← get).read name).toOption
  environment name := return known.lookup name

end FileTree

end HostTrust
