/-
HostTrust.Text.Quoted — a text or a character in quotes, with every character
that cannot be shown written as an escape.

Messages show foreign text this way. Tab, carriage return, line feed and NUL
have short escapes; the backslash and the quote in use are escaped by a
backslash; any other character without a glyph is written by its number.
-/
import HostTrust.Text.Letter
import HostTrust.Text.Unprintable

namespace HostTrust.Text

/-- Whether a character can be shown as it stands. -/
def isPrintable (c : Char) : Bool :=
  if isAscii c then 0x20 ≤ c.val && c.val ≠ 0x7F else !inRanges unprintableRanges c.toNat

/-- A character by its number: `\u{1f600}`. -/
def numericEscape (c : Char) : List Char :=
  "\\u\x7b".toList ++ Nat.toDigits 16 c.toNat ++ ['\x7d']

/-- A character inside quotes of the given kind. -/
def escapeChar (quote c : Char) : List Char :=
  if c == '\x00' then ['\\', '0']
  else if c == '\t' then ['\\', 't']
  else if c == '\r' then ['\\', 'r']
  else if c == '\n' then ['\\', 'n']
  else if c == '\\' || c == quote then ['\\', c]
  else if isPrintable c then [c]
  else numericEscape c

/-- A text in double quotes. -/
def quoted (s : String) : String :=
  String.ofList ('"' :: s.toList.flatMap (escapeChar '"') ++ ['"'])

/-- A character in single quotes. -/
def quotedChar (c : Char) : String :=
  String.ofList ('\'' :: escapeChar '\'' c ++ ['\''])

end HostTrust.Text
