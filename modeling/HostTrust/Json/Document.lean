/-
HostTrust.Json.Document — a JSON document as a typed reader meets it.

A document is a JSON value that may have blemishes. Some parts can be stepped
over but not read: a string with half a surrogate pair or with bytes that are
no text, a number out of range, brackets nested too deep (`unreadable`). Some
documents end in the middle because what follows is no JSON (`broken`); the
items and members before the break are still there, so that a reader meets a
fault of an earlier member before the break. A broken document counts as a
value, always the last one of its list or object.

`ofJson` sees a value as a document without blemishes, and `toJson?` reads the
value of a document that has none.
-/
import HostTrust.Json.Basic

namespace HostTrust.Json

/-- A JSON document, with its blemishes. -/
inductive Doc where
  | null
  | bool (b : Bool)
  | number (n : Number.Numeral)
  | text (s : String)
  | list (items : List Doc)
  /-- A key is missing where it cannot be read. -/
  | object (members : List (Option String × Doc))
  /-- A well-formed part that stands for no value. -/
  | unreadable
  /-- The place where the document stops being JSON. -/
  | broken

/-- Where a document comes from: a text, or a value that is already in memory. -/
inductive Source where
  | text
  | value
  deriving DecidableEq, Repr

namespace Doc

mutual

/-- A value as a document. -/
def ofJson : Json → Doc
  | .null => .null
  | .bool b => .bool b
  | .number n => .number n
  | .text s => .text s
  | .list items => .list (ofItems items)
  | .object members => .object (ofMembers members)

def ofItems : List Json → List Doc
  | [] => []
  | v :: rest => ofJson v :: ofItems rest

def ofMembers : List (String × Json) → List (Option String × Doc)
  | [] => []
  | (k, v) :: rest => (some k, ofJson v) :: ofMembers rest

end

mutual

/-- Whether a reader that does not need the document can step over it. -/
def isWhole : Doc → Bool
  | .broken => false
  | .list items => areWhole items
  | .object members => membersAreWhole members
  | _ => true

def areWhole : List Doc → Bool
  | [] => true
  | d :: rest => isWhole d && areWhole rest

def membersAreWhole : List (Option String × Doc) → Bool
  | [] => true
  | (_, d) :: rest => isWhole d && membersAreWhole rest

end

mutual

/-- The value of a document without blemishes. Of members with one key the last one
counts, in the place of the first. -/
def toJson? : Doc → Option Json
  | .null => some .null
  | .bool b => some (.bool b)
  | .number n => some (.number n)
  | .text s => some (.text s)
  | .list items => (toItems? items).map .list
  | .object members => (toMembers? [] members).map .object
  | .unreadable => none
  | .broken => none

def toItems? : List Doc → Option (List Json)
  | [] => some []
  | d :: rest => do
    let v ← toJson? d
    let vs ← toItems? rest
    return v :: vs

/-- Adds members to those already read. -/
def toMembers? (before : List (String × Json)) :
    List (Option String × Doc) → Option (List (String × Json))
  | [] => some before
  | (none, _) :: _ => none
  | (some k, d) :: rest => do
    let v ← toJson? d
    toMembers? (Json.put k v before) rest

end

end Doc

end HostTrust.Json
