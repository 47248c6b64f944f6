/-
HostTrust.Json.Misfit — why a document is no value of a type.

Each cause has one description. A description does not go on to say what was
expected, and it stops where a quoted text says so. What is wrong with a text
that is no JSON at all is withheld.
-/
import HostTrust.Json.Document
import HostTrust.Text.Quoted

namespace HostTrust

/-- Stands in a message for the details of a fault of syntax. -/
def withheld : String := "<library>"

namespace Json

/-- What was found in the place of something else. -/
inductive Found where
  | null
  | object
  | list
  | text (s : String)
  | int (n : Int)
  | float (x : Number.Binary64)
  | bool (b : Bool)
  deriving DecidableEq, Repr

def Found.description : Found → String
  | .null => "null"
  | .object => "map"
  | .list => "sequence"
  | .text s => "string " ++ Text.quoted s
  | .int n => "integer `" ++ String.ofList (Number.Numeral.int n).chars ++ "`"
  | .float x => "floating point `" ++ String.ofList x.chars ++ "`"
  | .bool b => "boolean `" ++ (if b then "true" else "false") ++ "`"

/-- Why a document is no value of a type. -/
inductive Misfit where
  | missingField (name : String)
  | duplicateField (name : String)
  | unknownVariant (name : String)
  | invalidType (found : Found)
  | invalidValue (found : Found)
  /-- A list in the place of a structure has the wrong number of items. -/
  | invalidLength (count : Nat)
  /-- The parts are there but make no value of the type. -/
  | rejected (reason : String)
  /-- The text is no JSON, or a string in it has not the form it should have. -/
  | malformed
  deriving DecidableEq, Repr

/-- The text up to the first place where `stop` begins. -/
def upTo (stop : List Char) : List Char → List Char
  | [] => []
  | c :: rest => if stop.isPrefixOf (c :: rest) then [] else c :: upTo stop rest

def Misfit.description : Misfit → String
  | .missingField name => "missing field `" ++ name ++ "`"
  | .duplicateField name => "duplicate field `" ++ name ++ "`"
  | .unknownVariant name => "unknown variant `" ++ name ++ "`"
  | .invalidType found => "invalid type: " ++ found.description
  | .invalidValue found => "invalid value: " ++ found.description
  | .invalidLength count => "invalid length " ++ toString count
  | .rejected reason => reason
  | .malformed => withheld

/-- The description of a misfit, which ends where an expectation would be spelled out. -/
def Misfit.message (m : Misfit) : String :=
  String.ofList (upTo ", expected".toList m.description.toList)

/-- What a document is, where something else should be. -/
def Doc.found? : Doc → Option Found
  | .null => some .null
  | .bool b => some (.bool b)
  | .number (.int n) => some (.int n)
  | .number (.float x) => some (.float x)
  | .text s => some (.text s)
  | .list _ => some .list
  | .object _ => some .object
  | .unreadable => none
  | .broken => none

/-- The fault of a document that is not of the type that should stand there. -/
def Doc.misfit (d : Doc) : Misfit :=
  match d.found? with
  | some found => .invalidType found
  | none => .malformed

end Json

end HostTrust
