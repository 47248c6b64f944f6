/-
HostTrust.Json.Pretty — the written form of a JSON value that people read.

Every item and every member stands on a line of its own, two blanks further in
than what it belongs to. Empty lists and objects are written without blanks.
-/
import HostTrust.Json.Printer

namespace HostTrust.Json

/-- A new line at a depth. -/
def newLine (depth : Nat) : List Char := '\n' :: List.replicate (2 * depth) ' '

mutual

/-- The written form of a value at a depth. -/
def prettyChars (depth : Nat) : Json → List Char
  | .list (v :: rest) =>
    '[' :: (newLine (depth + 1) ++ prettyChars (depth + 1) v ++ prettyItems depth rest)
  | .object ((k, v) :: rest) =>
    '\x7b' :: (newLine (depth + 1) ++ stringChars k ++ ':' :: ' ' :: prettyChars (depth + 1) v ++
      prettyMembers depth rest)
  | v => chars v

/-- The items after the first, with the bracket that closes the list. -/
def prettyItems (depth : Nat) : List Json → List Char
  | [] => newLine depth ++ [']']
  | v :: rest =>
    ',' :: (newLine (depth + 1) ++ prettyChars (depth + 1) v ++ prettyItems depth rest)

/-- The members after the first, with the brace that closes the object. -/
def prettyMembers (depth : Nat) : List (String × Json) → List Char
  | [] => newLine depth ++ ['\x7d']
  | (k, v) :: rest =>
    ',' :: (newLine (depth + 1) ++ stringChars k ++ ':' :: ' ' :: prettyChars (depth + 1) v ++
      prettyMembers depth rest)

end

/-- The written form of a value on several lines. -/
def pretty (v : Json) : String := String.ofList (prettyChars 0 v)

end HostTrust.Json
