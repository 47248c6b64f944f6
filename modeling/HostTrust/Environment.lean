/-
HostTrust.Environment — environment variables, and the file that adds to them.

The file holds a line for each variable: a name, an equals sign and a value.
Blank lines and lines that begin with `#` say nothing, and a name may have
`export` before it. In a value, single quotes make everything literal; double
quotes keep blanks; a backslash stands before a character that is meant
literally, `\n` for the end of a line; and `$name` or `$` and a name in braces
stand for another variable. The file never changes a variable that is set, and
nothing is read after a line that is not well formed.
-/
import HostTrust.Text.Blank
import HostTrust.Text.Letter
import HostTrust.Workspace

namespace HostTrust

/-- Environment variables with their values. The first value of a name counts. -/
abbrev Variables := List (String × String)

/-- A piece of a value in the file. -/
inductive ValuePiece where
  | sign (c : Char)
  /-- The value of another variable; nothing if it is not set. -/
  | reference (name : String)
  deriving DecidableEq, Repr

/-- A line that sets a variable. -/
structure Assignment where
  name : String
  value : List ValuePiece
  deriving DecidableEq, Repr

namespace Assignment

/-! ## Values -/

/-- How the next character of a value is read. -/
inductive Mode where
  | bare (quoted : Bool)
  /-- After a backslash. -/
  | escaped (quoted : Bool)
  /-- In single quotes. -/
  | literal
  /-- In the name of a variable; its characters come in reverse. -/
  | name (quoted : Bool) (signs : List Char)
  | bracedName (quoted : Bool) (signs : List Char)
  /-- After the value. -/
  | ended
  | comment
  deriving DecidableEq, Repr

def isNameSign (c : Char) : Bool := c.isAlphanum || Text.isCased c

/-- The variable whose name has the given characters, in reverse. -/
def referenceTo (signs : List Char) : ValuePiece := .reference (String.ofList signs.reverse)

/-- What a character after a backslash stands for. -/
def escape? (c : Char) : Option Char :=
  if c = 'n' then some '\n'
  else if ['\\', '\'', '"', '$', ' '].contains c then some c
  else none

/-- Reads a character of a value: the mode for the next one, and the pieces that are complete. -/
def step : Mode → Char → Option (Mode × List ValuePiece)
  | .bare quoted, c =>
    if c = '$' then some (.name quoted [], [])
    else if c = '\\' then some (.escaped quoted, [])
    else if c = '"' then some (.bare !quoted, [])
    else if quoted then some (.bare true, [.sign c])
    else if c = '\'' then some (.literal, [])
    else if c = ' ' ∨ c = '\t' then some (.ended, [])
    else some (.bare false, [.sign c])
  | .escaped quoted, c => (escape? c).map fun c => (.bare quoted, [.sign c])
  | .literal, c => if c = '\'' then some (.bare false, []) else some (.literal, [.sign c])
  | .name quoted signs, c =>
    if isNameSign c then some (.name quoted (c :: signs), [])
    else if c = '\x7b' ∧ signs = [] then some (.bracedName quoted [], [])
    else if c = '$' then some (.name quoted [], [referenceTo signs])
    else some (.bare quoted, [referenceTo signs, .sign c])
  | .bracedName quoted signs, c =>
    if c = '\x7d' then some (.bare quoted, [referenceTo signs])
    else some (.bracedName quoted (c :: signs), [])
  | .ended, c =>
    if c = ' ' ∨ c = '\t' then some (.ended, [])
    else if c = '#' then some (.comment, [])
    else none
  | .comment, _ => some (.comment, [])

/-- The pieces that the end of the line completes, if a value may end there. -/
def finish : Mode → Option (List ValuePiece)
  | .bare false | .escaped false | .ended | .comment => some []
  | .name false signs => some [referenceTo signs]
  | _ => none

/-- The pieces of a value. -/
def pieces? (mode : Mode) : List Char → Option (List ValuePiece)
  | [] => finish mode
  | c :: rest => do
    let (mode, done) ← step mode c
    return done ++ (← pieces? mode rest)

/-! ## Lines -/

/-- The name at the beginning of a line, and what follows. -/
def name? (cs : List Char) : Option (String × List Char) :=
  match cs with
  | c :: _ =>
    if c.isAlpha || c = '_' then
      let isSign := fun (c : Char) => c.isAlphanum || c = '_' || c = '.'
      some (String.ofList (cs.takeWhile isSign), (cs.dropWhile isSign).dropWhile Text.isBlank)
    else none
  | [] => none

def afterEquals? : List Char → Option (List Char)
  | '=' :: rest => some (rest.dropWhile Text.isBlank)
  | _ => none

/-- Whether nothing follows but a comment. -/
def saysNothing (cs : List Char) : Bool := cs.isEmpty || cs.head? = some '#'

/-- What a line says: `some none` if it says nothing, `none` if it is not well formed. -/
def ofLine? (line : String) : Option (Option Assignment) := do
  let cs := (Text.dropBlankEnd line.toList).dropWhile Text.isBlank
  if saysNothing cs then return none
  let (name, rest) ← name? cs
  let (name, value) ←
    match name == "export", afterEquals? rest with
    | _, some value => pure (name, value)
    | true, none => do
      let (name, rest) ← name? rest
      pure (name, ← afterEquals? rest)
    | false, none => none
  if saysNothing value then return some ⟨name, []⟩
  return some ⟨name, ← pieces? (.bare false) value⟩

/-- The lines of a file, as bytes. -/
def splitLines : Bytes → List Bytes
  | [] => [[]]
  | b :: rest =>
    if b = 10 then [] :: splitLines rest
    else match splitLines rest with
      | line :: lines => (b :: line) :: lines
      | [] => [[b]]

/-- The assignments of some lines, up to the first that is not well formed. -/
def ofLines : List Bytes → List Assignment
  | [] => []
  | line :: rest =>
    match (Text.decode? line).bind ofLine? with
    | some (some a) => a :: ofLines rest
    | some none => ofLines rest
    | none => []

/-- The assignments of a file. -/
def ofFile (content : Bytes) : List Assignment := ofLines (splitLines content)

/-! ## Their effect -/

/-- The names of variables that an assignment looks at. -/
def names (a : Assignment) : List String :=
  a.name :: a.value.filterMap fun
    | .reference name => some name
    | .sign _ => none

/-- The text of a value. -/
def text (a : Assignment) (known : Variables) : String :=
  String.join (a.value.map fun
    | .sign c => String.singleton c
    | .reference name => (known.lookup name).getD "")

/-- Sets a variable that is not set. -/
def apply (known : Variables) (a : Assignment) : Variables :=
  match known.lookup a.name with
  | some _ => known
  | none => known ++ [(a.name, a.text known)]

end Assignment

/-- The value of an environment variable, with the file `.env` taken into account. -/
def Workspace.resolve? {m : Type → Type} [Monad m] (w : Workspace m) (name : String) :
    m (Option String) := do
  let assignments := Assignment.ofFile ((← w.findUpward ".env").getD [])
  let set ← (name :: assignments.flatMap Assignment.names).filterMapM fun n => do
    return (← w.environment n).map (n, ·)
  return (assignments.foldl Assignment.apply set).lookup name

end HostTrust
