/-
HostTrust.Xml.Attribute — the attributes of a tag.

An attribute is a name, `=` and a value in quotes of either kind; blanks may
stand around each, and need not stand between two attributes. A name must not
occur twice. Attributes are read in order, and a search for one stops where it
is found, so faults after it do not count.
-/
import HostTrust.Xml.Reference
import HostTrust.Xml.Token

namespace HostTrust.Xml

/-- What is wrong with the attributes of a tag. -/
inductive AttributeError where
  /-- They are not of the form described above. -/
  | malformed
  /-- The value has a reference that is none. -/
  | badValue (name : String)
  deriving DecidableEq, Repr

/-- An attribute as it stands. -/
structure Attribute where
  name : List Char
  value : List Char
  deriving DecidableEq, Repr

/-- Reads a value in quotes. -/
def quotedValue (cs : List Char) : Option (List Char × List Char) :=
  match cs with
  | q :: rest =>
    if q = '"' ∨ q = '\'' then
      match rest.dropWhile (· != q) with
      | _ :: after => some (rest.takeWhile (· != q), after)
      | [] => none
    else none
  | [] => none

/-- Reads one attribute; the input begins with its name. -/
def readAttribute (cs : List Char) : Option (Attribute × List Char) :=
  match cs with
  | [] => none
  | first :: rest =>
    let inName (c : Char) : Bool := c != '=' && !isSpace c
    let name := first :: rest.takeWhile inName
    match (rest.dropWhile inName).dropWhile isSpace with
    | '=' :: rest => do
      let (value, rest) ← quotedValue (rest.dropWhile isSpace)
      some (⟨name, value⟩, rest)
    | _ => none

/-- Searches for an attribute by its local name; `before` holds the names that have been read. -/
def findFrom (wanted : List Char) : (steps : Nat) → (before : List (List Char)) → List Char →
    Except AttributeError (Option (List Char))
  | 0, _, _ => throw .malformed
  | steps + 1, before, cs =>
    match cs.dropWhile isSpace with
    | [] => return none
    | cs =>
      match readAttribute cs with
      | none => throw .malformed
      | some (a, rest) =>
        if before.contains a.name then throw .malformed
        else if localName a.name = wanted then return some a.value
        else findFrom wanted steps (a.name :: before) rest

/-- The value of an attribute with its references replaced, if the tag has the attribute. -/
def Tag.attribute? (tag : Tag) (name : String) : Except AttributeError (Option String) := do
  match ← findFrom name.toList (tag.attributes.length + 1) [] tag.attributes with
  | none => return none
  | some raw =>
    match expand raw with
    | some value => return some (String.ofList value)
    | none => throw (.badValue name)

end HostTrust.Xml
