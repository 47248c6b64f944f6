/-
HostTrust.Json.Printer — the compact written form of a JSON value.

There are no blanks. Quote, backslash and the controls below the blank are
escaped, with the short escapes where there are some; every other character
stands for itself. This is the form that signatures cover.
-/
import HostTrust.Json.Basic

namespace HostTrust.Json

/-- One character inside a string. -/
def escapeChar (c : Char) : List Char :=
  if c == '"' then ['\\', '"']
  else if c == '\\' then ['\\', '\\']
  else if 0x20 ≤ c.toNat then [c]
  else if c == '\x08' then ['\\', 'b']
  else if c == '\x09' then ['\\', 't']
  else if c == '\x0a' then ['\\', 'n']
  else if c == '\x0c' then ['\\', 'f']
  else if c == '\x0d' then ['\\', 'r']
  else ['\\', 'u', '0', '0', Nat.digitChar (c.toNat / 16), Nat.digitChar (c.toNat % 16)]

/-- A string in quotes. -/
def stringChars (s : String) : List Char :=
  '"' :: (s.toList.flatMap escapeChar ++ ['"'])

mutual

/-- The written form of a value. -/
def chars : Json → List Char
  | .null => ['n', 'u', 'l', 'l']
  | .bool true => ['t', 'r', 'u', 'e']
  | .bool false => ['f', 'a', 'l', 's', 'e']
  | .number n => n.chars
  | .text s => stringChars s
  | .list items => '[' :: itemChars items
  | .object members => '\x7b' :: memberChars members

/-- The items of a list, with the bracket that closes it. -/
def itemChars : List Json → List Char
  | [] => [']']
  | [v] => chars v ++ [']']
  | v :: w :: rest => chars v ++ ',' :: itemChars (w :: rest)

/-- The members of an object, with the brace that closes it. -/
def memberChars : List (String × Json) → List Char
  | [] => ['\x7d']
  | [(k, v)] => stringChars k ++ ':' :: (chars v ++ ['\x7d'])
  | (k, v) :: m :: rest => stringChars k ++ ':' :: (chars v ++ ',' :: memberChars (m :: rest))

end

/-- The written form of a value as text. -/
def compact (v : Json) : String := String.ofList (chars v)

/-- The written form of a value as bytes. -/
def toBytes (v : Json) : Bytes := Text.encodeChars (chars v)

end HostTrust.Json
