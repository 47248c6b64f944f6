/-
HostTrust.Json.Reader — documents from text.

The reader works on the letters of a text. It accepts the JSON grammar and
keeps going as long as it can: `value` gives the document that starts at the
input together with the rest of the input, or without one if the document is
broken. Brackets nested deeper than 127 levels can be stepped over but not
read. Each step takes at least one letter or opens a list of items, so twice
the length of the input bounds the steps.
-/
import HostTrust.Json.Document

namespace HostTrust.Json.Doc

open Text (Letter)

/-- Brackets may be nested this deep. -/
def greatestDepth : Nat := 127

/-- The blanks between tokens. -/
def isGap (l : Letter) : Bool :=
  match l with
  | some c => c == ' ' || c == '\n' || c == '\t' || c == '\r'
  | none => false

def skipGap (cs : List Letter) : List Letter := cs.dropWhile isGap

/-! ## Strings -/

def hexValue? (l : Letter) : Option Nat :=
  match l with
  | some c =>
    if '0' ≤ c ∧ c ≤ '9' then some (c.toNat - 48)
    else if 'a' ≤ c ∧ c ≤ 'f' then some (c.toNat - 87)
    else if 'A' ≤ c ∧ c ≤ 'F' then some (c.toNat - 55)
    else none
  | none => none

/-- The number of four hexadecimal digits. -/
def unit? (a b c d : Letter) : Option Nat := do
  return (((← hexValue? a) * 16 + (← hexValue? b)) * 16 + (← hexValue? c)) * 16 + (← hexValue? d)

/-- The character of an escape of one letter. -/
def shortEscape? (c : Char) : Option Char :=
  match c with
  | '"' => some '"'
  | '\\' => some '\\'
  | '/' => some '/'
  | 'b' => some '\x08'
  | 'f' => some '\x0c'
  | 'n' => some '\n'
  | 'r' => some '\r'
  | 't' => some '\t'
  | _ => none

/-- The text of a string; it is lost when one of its parts is no character. -/
structure StringSoFar where
  /-- The characters read, the latest first. -/
  latest : List Char
  /-- Whether every part so far is a character. -/
  readable : Bool

def StringSoFar.add (s : StringSoFar) (c : Char) : StringSoFar := { s with latest := c :: s.latest }

def StringSoFar.spoil (s : StringSoFar) : StringSoFar := { s with readable := false }

def StringSoFar.finish (s : StringSoFar) : Option String :=
  if s.readable then some (String.ofList s.latest.reverse) else none

/-- What a string is: its text if it can be read, and the rest of the input; or nothing,
if the input is no string. -/
abbrev StringReading := Option (Option String × List Letter)

/-- A character by the number of its UTF-16 unit, where that is a character by itself. -/
def StringSoFar.addUnit (s : StringSoFar) (unit : Nat) : StringSoFar :=
  if unit.isValidChar then s.add (Char.ofNat unit) else s.spoil

/-- Whether two UTF-16 units are the halves of one character. -/
def isPair (high low : Nat) : Bool :=
  0xD800 ≤ high && high < 0xDC00 && 0xDC00 ≤ low && low < 0xE000

/-- The character of two halves. -/
def pairChar (high low : Nat) : Char :=
  Char.ofNat (0x10000 + (high - 0xD800) * 0x400 + (low - 0xDC00))

/-- Reads up to the closing quote. -/
def readString (s : StringSoFar) : List Letter → StringReading
  | [] => none
  | some '"' :: rest => some (s.finish, rest)
  | some '\\' :: some 'u' :: a :: b :: c :: d :: some '\\' :: some 'u' :: e :: f :: g :: h ::
      rest =>
    match unit? a b c d, unit? e f g h with
    | some high, some low =>
      if isPair high low then readString (s.add (pairChar high low)) rest
      else readString (s.addUnit high) (some '\\' :: some 'u' :: e :: f :: g :: h :: rest)
    | some unit, none =>
      readString (s.addUnit unit) (some '\\' :: some 'u' :: e :: f :: g :: h :: rest)
    | none, _ => none
  | some '\\' :: some 'u' :: a :: b :: c :: d :: rest =>
    match unit? a b c d with
    | some unit => readString (s.addUnit unit) rest
    | none => none
  | some '\\' :: some c :: rest =>
    match shortEscape? c with
    | some e => readString (s.add e) rest
    | none => none
  | some '\\' :: _ => none
  | some c :: rest => if c.toNat < 0x20 then none else readString (s.add c) rest
  | none :: rest => readString s.spoil rest
termination_by cs => cs.length

/-! ## Values -/

/-- A word of the grammar, with the document it stands for. -/
def readWord (word : List Char) (meaning : Doc) (cs : List Letter) : Doc × Option (List Letter) :=
  if cs.take word.length = word.map some then (meaning, some (cs.drop word.length))
  else (.broken, none)

/-- A number. -/
def readNumber (cs : List Letter) : Doc × Option (List Letter) :=
  match Number.read cs with
  | (.number (some n), rest) => (.number n, some rest)
  | (.number none, rest) => (.unreadable, some rest)
  | (.malformed, _) => (.broken, none)

/-- What brackets hold, when `room` more levels may be opened around it. -/
def bracketed (room : Nat) (content : Doc) (rest : Option (List Letter)) :
    Doc × Option (List Letter) :=
  if room = 0 then (if rest.isSome then .unreadable else .broken, rest) else (content, rest)

mutual

/-- The document at the start of the input. -/
def read : (steps : Nat) → (room : Nat) → List Letter → Doc × Option (List Letter)
  | 0, _, _ => (.broken, none)
  | steps + 1, room, cs =>
    match skipGap cs with
    | some '"' :: rest =>
      match readString ⟨[], true⟩ rest with
      | some (some s, rest) => (.text s, some rest)
      | some (none, rest) => (.unreadable, some rest)
      | none => (.broken, none)
    | some '[' :: rest =>
      match skipGap rest with
      | some ']' :: rest => bracketed room (.list []) (some rest)
      | rest =>
        let (items, rest) := readItems steps (room - 1) [] rest
        bracketed room (.list items) rest
    | some '\x7b' :: rest =>
      match skipGap rest with
      | some '\x7d' :: rest => bracketed room (.object []) (some rest)
      | rest =>
        let (members, rest) := readMembers steps (room - 1) [] rest
        bracketed room (.object members) rest
    | some 'n' :: rest => readWord ['u', 'l', 'l'] .null rest
    | some 't' :: rest => readWord ['r', 'u', 'e'] (.bool true) rest
    | some 'f' :: rest => readWord ['a', 'l', 's', 'e'] (.bool false) rest
    | cs => readNumber cs

/-- Items up to the closing bracket; `before` holds the items read, the latest first. -/
def readItems : (steps : Nat) → (room : Nat) → (before : List Doc) → List Letter →
    List Doc × Option (List Letter)
  | 0, _, before, _ => ((.broken :: before).reverse, none)
  | steps + 1, room, before, cs =>
    match read steps room cs with
    | (d, none) => ((d :: before).reverse, none)
    | (d, some rest) =>
      match skipGap rest with
      | some ']' :: rest => ((d :: before).reverse, some rest)
      | some ',' :: rest => readItems steps room (d :: before) rest
      | _ => ((.broken :: d :: before).reverse, none)

/-- Members up to the closing brace; `before` holds the members read, the latest first. -/
def readMembers : (steps : Nat) → (room : Nat) → (before : List (Option String × Doc)) →
    List Letter → List (Option String × Doc) × Option (List Letter)
  | 0, _, before, _ => (((none, .broken) :: before).reverse, none)
  | steps + 1, room, before, cs =>
    match skipGap cs with
    | some '"' :: rest =>
      match readString ⟨[], true⟩ rest with
      | none => (((none, .broken) :: before).reverse, none)
      | some (key, rest) =>
        match skipGap rest with
        | some ':' :: rest =>
          match read steps room rest with
          | (d, none) => (((key, d) :: before).reverse, none)
          | (d, some rest) =>
            match skipGap rest with
            | some '\x7d' :: rest => (((key, d) :: before).reverse, some rest)
            | some ',' :: rest => readMembers steps room ((key, d) :: before) rest
            | _ => (((none, .broken) :: (key, d) :: before).reverse, none)
        | _ => (((key, .broken) :: before).reverse, none)
    | _ => (((none, .broken) :: before).reverse, none)

end

/-- The document that a text starts with, and the rest of the text. -/
def ofLetters (cs : List Letter) : Doc × Option (List Letter) :=
  read (2 * cs.length + 2) greatestDepth cs

end HostTrust.Json.Doc

namespace HostTrust.Json

/-- Whether nothing but blanks follows. -/
def isEnd (rest : Option (List Text.Letter)) : Bool :=
  match rest with
  | some cs => (Doc.skipGap cs).isEmpty
  | none => false

/-- The value that bytes write, if they write one. -/
def ofBytes? (bs : Bytes) : Option Json :=
  let (d, rest) := Doc.ofLetters (Text.decode bs)
  if isEnd rest then d.toJson? else none

end HostTrust.Json
