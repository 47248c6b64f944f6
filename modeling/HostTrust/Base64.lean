/-
HostTrust.Base64 — bytes written in the standard base 64 alphabet.

Four characters stand for three bytes. The last group is filled up with `=`,
always and only as far as needed, and the bits that no byte uses are zero; so
every byte sequence has one written form, and any other text is refused.
-/
import HostTrust.Text.Utf8

namespace HostTrust.Base64

/-- The value of a character of the alphabet. -/
def value? (c : Char) : Option Nat :=
  let n := c.toNat
  if 'A' ≤ c ∧ c ≤ 'Z' then some (n - 65)
  else if 'a' ≤ c ∧ c ≤ 'z' then some (n - 71)
  else if '0' ≤ c ∧ c ≤ '9' then some (n + 4)
  else if c = '+' then some 62
  else if c = '/' then some 63
  else none

/-- The bytes of four characters. -/
def fullGroup (a b c d : Nat) : Bytes :=
  [UInt8.ofNat (a * 4 + b / 16), UInt8.ofNat (b % 16 * 16 + c / 4), UInt8.ofNat (c % 4 * 64 + d)]

/-- The bytes of a last group, which `=` may fill up. -/
def lastGroup (a b c d : Char) : Option Bytes := do
  let x ← value? a
  let y ← value? b
  if c = '=' then
    if d = '=' ∧ y % 16 = 0 then some [UInt8.ofNat (x * 4 + y / 16)] else none
  else
    let z ← value? c
    if d = '=' then
      if z % 4 = 0 then
        some [UInt8.ofNat (x * 4 + y / 16), UInt8.ofNat (y % 16 * 16 + z / 4)]
      else none
    else
      let w ← value? d
      some (fullGroup x y z w)

/-- The bytes that characters write in base 64. -/
def decodeChars : List Char → Option Bytes
  | [] => some []
  | a :: b :: c :: d :: rest =>
    if rest.isEmpty then lastGroup a b c d
    else do
      let x ← value? a
      let y ← value? b
      let z ← value? c
      let w ← value? d
      let bytes ← decodeChars rest
      some (fullGroup x y z w ++ bytes)
  | _ => none

/-- The bytes that a text writes in base 64. -/
def decode (s : String) : Option Bytes := decodeChars s.toList

end HostTrust.Base64
