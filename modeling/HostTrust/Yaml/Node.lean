/-
HostTrust.Yaml.Node — what a YAML document says, and how settings are read from
it.

Any scalar can be read as text. Truth values and numbers must be plain, without
quotes. A member that may be absent may also be given as nothing; a mapping or
a list may be left empty. Members that nobody asks for are passed over, and a
member that is asked for must not be given twice.
-/

namespace HostTrust.Yaml

/-- How a scalar is written. -/
inductive Style where
  | plain
  /-- Without quotes, but with a tag in front. -/
  | tagged
  | quoted
  deriving DecidableEq, Repr

/-- A value. -/
inductive Node where
  | scalar (style : Style) (text : String)
  | list (items : List Node)
  | map (entries : List (Node × Node))
  deriving Repr

namespace Node

/-- The value where none is written. -/
def empty : Node := .scalar .plain ""

/-- Whether the value is not there or left empty. -/
def isEmpty : Node → Bool
  | .scalar style text => style != .quoted && text.isEmpty
  | _ => false

def text? : Node → Option String
  | .scalar _ text => some text
  | _ => none

def bool? : Node → Option Bool
  | .scalar .quoted _ => none
  | .scalar _ text =>
    if ["true", "True", "TRUE"].contains text then some true
    else if ["false", "False", "FALSE"].contains text then some false
    else none
  | _ => none

/-- The value of digits in a base. -/
def digits? (base : Nat) (cs : List Char) : Option Nat :=
  if cs.isEmpty then none
  else cs.foldlM (fun n c =>
    let value :=
      if '0' ≤ c ∧ c ≤ '9' then c.toNat - 48
      else if 'a' ≤ c ∧ c ≤ 'f' then c.toNat - 87
      else if 'A' ≤ c ∧ c ≤ 'F' then c.toNat - 55
      else base
    if value < base then some (n * base + value) else none) 0

/-- The number that a plain scalar writes: in decimal digits without zeros in front, or in
another base after its mark. -/
def naturalOfText? (s : String) : Option Nat :=
  match (match s.toList with | '+' :: rest => rest | cs => cs) with
  | '0' :: 'x' :: rest => digits? 16 rest
  | '0' :: 'o' :: rest => digits? 8 rest
  | '0' :: 'b' :: rest => digits? 2 rest
  | '0' :: _ :: _ => none
  | cs => digits? 10 cs

/-- A number that fits into so many bits. -/
def natural? (bits : Nat) : Node → Option Nat
  | .scalar .quoted _ => none
  | .scalar _ text => (naturalOfText? text).filter (· < Nat.pow 2 bits)
  | _ => none

def items? : Node → Option (List Node)
  | .list items => some items
  | n => if n.isEmpty then some [] else none

/-- The entries of a mapping whose keys are text. -/
def entries? : Node → Option (List (String × Node))
  | .map entries => entries.mapM fun (key, value) => do return (← key.text?, value)
  | n => if n.isEmpty then some [] else none

/-- The members with the given names. -/
def members? (names : List String) (n : Node) : Option (List (String × Node)) := do
  let members := (← n.entries?).filter fun e => names.contains e.1
  if (members.map Prod.fst).Nodup then some members else none

/-- Whether the value stands for nothing. -/
def isNothing : Node → Bool
  | .scalar .plain text => ["", "~", "null", "Null", "NULL"].contains text
  | _ => false

end Node

/-! ## Reading members -/

/-- A member that must be there. -/
def required {α : Type} (read : Node → Option α) (members : List (String × Node))
    (name : String) : Option α := do
  read (← members.lookup name)

/-- A member that has a value if it is absent. -/
def withDefault {α : Type} (read : Node → Option α) (value : α)
    (members : List (String × Node)) (name : String) : Option α :=
  match members.lookup name with
  | some n => read n
  | none => some value

/-- A member that may be absent or nothing. -/
def optional {α : Type} (read : Node → Option α) (members : List (String × Node))
    (name : String) : Option (Option α) :=
  match members.lookup name with
  | some n => if n.isNothing then some none else (read n).map some
  | none => some none

end HostTrust.Yaml
