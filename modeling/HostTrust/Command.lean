/-
HostTrust.Command — what a user can ask for, and how a command line asks for it.

A command line has options of its own, then the name of a command, then the
options of the command. An option that takes a value is followed by it, as a
word of its own or behind an equals sign; after its letter a value may also
follow at once. An option with several values takes all words up to the next
option. What has been given is looked at when the next option begins or the
line ends, so that an unknown option is reported before a missing value, but a
missing value before help is shown.
-/

namespace HostTrust

/-- What to verify. -/
inductive Command where
  /-- One host against some flavors. -/
  | verify (manifest flavors : String) (skipSignature : Bool)
  /-- Several hosts against the same flavors. -/
  | verifyHosts (manifests : List String) (flavors : String)
  deriving DecidableEq, Repr

/-- A command, and the file with the settings. -/
structure Invocation where
  settingsFile : String
  command : Command
  deriving DecidableEq, Repr

/-- Why a command line asks for nothing that can be done. -/
inductive UsageError where
  | help
  | version
  | noArguments
  | missingArgument
  | missingCommand
  | unknownArgument
  | unknownCommand
  /-- An option is given twice. -/
  | repeated
  /-- A value is missing or empty. -/
  | invalidValue
  /-- A value is given where none is taken. -/
  | tooManyValues
  deriving DecidableEq, Repr

/-! ## Options -/

/-- What an option takes. -/
inductive CommandOption.Kind where
  | flag
  | value
  | values
  | help
  | version
  deriving DecidableEq, Repr

structure CommandOption where
  name : String
  letter : Option Char
  kind : CommandOption.Kind
  required : Bool
  deriving DecidableEq, Repr

def CommandOption.takesValue (o : CommandOption) : Bool := o.kind == .value || o.kind == .values

/-- What has been given. -/
structure Given where
  /-- The options and their values. -/
  values : List (String × List String)
  /-- The last option with the values that it has so far. -/
  pending : Option (CommandOption × List String)
  deriving DecidableEq, Repr

namespace Given

def nothing : Given := ⟨[], none⟩

def values? (g : Given) (name : String) : Option (List String) := g.values.lookup name

/-- The value of an option that takes one. -/
def value? (g : Given) (name : String) : Option String := do (← g.values? name).head?

/-- Accepts an option with all its values. -/
def accept (g : Given) (o : CommandOption) (values : List String) : Except UsageError Given := do
  match o.kind with
  | .help => throw .help
  | .version => throw .version
  | .flag =>
    if (g.values? o.name).isSome then throw .repeated
  | .value =>
    if values.isEmpty then throw .invalidValue
    if (g.values? o.name).isSome then throw .repeated
    if values.contains "" then throw .invalidValue
  | .values =>
    if values.isEmpty || values.contains "" then throw .invalidValue
  return { g with values := (o.name, (g.values? o.name).getD [] ++ values) :: g.values }

/-- Accepts the last option. -/
def settle (g : Given) : Except UsageError Given :=
  match g.pending with
  | some (o, values) => accept { g with pending := none } o values
  | none => return g

/-- Begins an option, with the value that is attached to it. -/
def beginOption (g : Given) (o : CommandOption) (attached : Option String) :
    Except UsageError Given := do
  let g ← g.settle
  match attached with
  | some value => g.accept o [value]
  | none => if o.takesValue then return { g with pending := some (o, []) } else g.accept o []

/-- What has been given with one more value, if the last option goes on. -/
def push? (g : Given) (value : String) : Option Given :=
  match g.pending with
  | some (o, values) =>
    if o.kind == .values || values.isEmpty then
      some { g with pending := some (o, values ++ [value]) }
    else none
  | none => none

end Given

/-! ## Words -/

/-- How a word of the command line looks. -/
inductive ArgumentWord where
  /-- Ends the options. -/
  | separator
  | name (name : String) (value : Option String)
  | letters (letters : List Char)
  | plain
  deriving DecidableEq, Repr

def ArgumentWord.of (word : String) : ArgumentWord :=
  match word.toList with
  | ['-', '-'] => .separator
  | '-' :: '-' :: rest =>
    .name (String.ofList (rest.takeWhile (· ≠ '=')))
      (match rest.dropWhile (· ≠ '=') with
        | _ :: value => some (String.ofList value)
        | [] => none)
  | '-' :: letter :: rest => .letters (letter :: rest)
  | _ => .plain

/-- The options that may be given, and the commands that may follow. -/
structure ArgumentLevel where
  options : List CommandOption
  commands : List String

namespace ArgumentLevel

/-- Reads options that are given by their letters in one word. -/
def readLetters (l : ArgumentLevel) (g : Given) : List Char → Except UsageError Given
  | [] => return g
  | letter :: rest => do
    match l.options.find? (·.letter = some letter) with
    | none => throw .unknownArgument
    | some o =>
      if o.takesValue then
        g.beginOption o (match rest with
          | [] => none
          | '=' :: value => some (String.ofList value)
          | value => some (String.ofList value))
      else readLetters l (← g.beginOption o none) rest

/-- The fault of a word that is neither an option nor a value. -/
def strayWord (l : ArgumentLevel) (optionsEnded : Bool) (word : String) : UsageError :=
  if l.commands.isEmpty || (optionsEnded && l.commands.contains word) then .unknownArgument
  else .unknownCommand

/-- Reads words up to a command: what is given, the command, and the words after it. -/
def read (l : ArgumentLevel) (g : Given) (optionsEnded : Bool) :
    List String → Except UsageError (Given × Option (String × List String))
  | [] => return (g, none)
  | word :: rest => do
    if optionsEnded then throw (l.strayWord true word)
    match g.push? word, ArgumentWord.of word with
    | _, .separator => read l g true rest
    | _, .name name value =>
      match l.options.find? (·.name = name) with
      | none => throw .unknownArgument
      | some o =>
        if value.isSome && !o.takesValue then throw .tooManyValues
        else read l (← g.beginOption o value) false rest
    | _, .letters letters => read l (← l.readLetters g letters) false rest
    | some g, .plain => read l g false rest
    | none, .plain =>
      if l.commands.contains word then return (g, some (word, rest))
      else throw (l.strayWord false word)

/-- Reads all words as options, none of the required ones missing. -/
def readAll (l : ArgumentLevel) (words : List String) : Except UsageError Given := do
  let (g, _) ← l.read .nothing false words
  let g ← g.settle
  if l.options.any fun o => o.required && (g.values? o.name).isNone then throw .missingArgument
  return g

end ArgumentLevel

/-! ## Commands -/

namespace Command

def helpOption : CommandOption := ⟨"help", some 'h', .help, false⟩

def flavorsOption : CommandOption := ⟨"flavors", some 'f', .value, true⟩

/-- The options that stand before the command. -/
def general : ArgumentLevel where
  options := [⟨"config", some 'c', .value, false⟩, helpOption,
    ⟨"version", some 'V', .version, false⟩]
  commands := ["verify", "verify-hosts", "help"]

def readVerify (words : List String) : Except UsageError Command := do
  let level : ArgumentLevel := {
    options := [⟨"manifest", some 'm', .value, true⟩, flavorsOption,
      ⟨"skip-signature", none, .flag, false⟩, helpOption]
    commands := [] }
  let g ← level.readAll words
  return .verify ((g.value? "manifest").getD "") ((g.value? "flavors").getD "")
    (g.values? "skip-signature").isSome

def readVerifyHosts (words : List String) : Except UsageError Command := do
  let level : ArgumentLevel := {
    options := [⟨"manifests", some 'm', .values, true⟩, flavorsOption, helpOption]
    commands := [] }
  let g ← level.readAll words
  return .verifyHosts ((g.values? "manifests").getD []) ((g.value? "flavors").getD "")

/-- What is asked for by the words after `help`: at most one command. -/
def helpOn : List String → UsageError
  | [] => .help
  | [command] => if general.commands.contains command then .help else .unknownCommand
  | _ => .unknownCommand

end Command

/-- The settings file if none is named. -/
def Invocation.defaultSettingsFile : String := "trust_cli.yaml"

/-- What a command line asks for, by the words after the program's name. -/
def Invocation.ofArguments (words : List String) : Except UsageError Invocation := do
  let (g, command) ← Command.general.read .nothing false words
  match command with
  | none =>
    let g ← g.settle
    throw (if g.values.isEmpty then .noArguments else .missingCommand)
  | some (name, rest) =>
    let command ←
      if name == "verify" then Command.readVerify rest
      else if name == "verify-hosts" then Command.readVerifyHosts rest
      else throw (Command.helpOn rest)
    let g ← g.settle
    return ⟨(g.value? "config").getD defaultSettingsFile, command⟩

end HostTrust
