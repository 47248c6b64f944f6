/-
HostTrust.Hex — bytes written as hexadecimal digits.

Writing uses small letters, two digits a byte. Reading takes either case and
refuses an odd number of digits first, then the first character that is no
digit, with its position. Reading gives back what was written.
-/
import HostTrust.Text.Quoted
import HostTrust.Text.Utf8

namespace HostTrust.Hex

/-- The digit of a number below sixteen. -/
def digit (n : Nat) : Char := Nat.digitChar n

/-- The value of a hexadecimal digit, given by its byte. -/
def value? (b : UInt8) : Option Nat :=
  let n := b.toNat
  if 0x30 ≤ n ∧ n ≤ 0x39 then some (n - 0x30)
  else if 0x61 ≤ n ∧ n ≤ 0x66 then some (n - 0x57)
  else if 0x41 ≤ n ∧ n ≤ 0x46 then some (n - 0x37)
  else none

/-- Whether a character is a hexadecimal digit. -/
def isDigit (c : Char) : Bool :=
  ('0' ≤ c && c ≤ '9') || ('a' ≤ c && c ≤ 'f') || ('A' ≤ c && c ≤ 'F')

/-- Why a text is not the hexadecimal form of bytes. -/
inductive Failure where
  | oddLength
  /-- A byte that is no digit, and its position. -/
  | badDigit (byte : UInt8) (position : Nat)
  deriving DecidableEq, Repr

def Failure.message : Failure → String
  | .oddLength => "Odd number of digits"
  | .badDigit byte position =>
    "Invalid character " ++ Text.quotedChar (Char.ofNat byte.toNat) ++ " at position " ++
      toString position

/-- The two digits of a byte. -/
def byteChars (b : UInt8) : List Char :=
  [digit (b.toNat / 16), digit (b.toNat % 16)]

/-- Bytes in small hexadecimal digits. -/
def encode (bs : Bytes) : String :=
  String.ofList (bs.flatMap byteChars)

/-- Reads pairs of digits; `position` counts the digits before the input. -/
def decodeFrom (position : Nat) : Bytes → Except Failure Bytes
  | high :: low :: rest =>
    match value? high, value? low with
    | some h, some l => do
      let bytes ← decodeFrom (position + 2) rest
      return UInt8.ofNat (h * 16 + l) :: bytes
    | none, _ => throw (.badDigit high position)
    | some _, none => throw (.badDigit low (position + 1))
  | _ => return []

/-- The bytes that a text writes in hexadecimal digits. -/
def decode (s : String) : Except Failure Bytes :=
  let bs := Text.encode s
  if bs.length % 2 = 0 then decodeFrom 0 bs else throw .oddLength

/-! ## Laws -/

/-- A digit is one byte, which has the value of the digit. -/
theorem value?_digit : ∀ n < 16,
    String.utf8EncodeChar (digit n) = [UInt8.ofNat (digit n).toNat] ∧
      value? (UInt8.ofNat (digit n).toNat) = some n := by
  decide

/-- Reading gives back what was written. -/
theorem decode_encode (bs : Bytes) : decode (encode bs) = .ok bs := by
  have digits : ∀ bs : Bytes, (Text.encodeChars (bs.flatMap byteChars)).length % 2 = 0 ∧
      ∀ position, decodeFrom position (Text.encodeChars (bs.flatMap byteChars)) = .ok bs := by
    intro bs
    induction bs with
    | nil => exact ⟨rfl, fun _ => rfl⟩
    | cons b bs ih =>
      have byte : b.toNat < 256 := b.toNat_lt
      obtain ⟨writtenHigh, readHigh⟩ := value?_digit (b.toNat / 16) (by omega)
      obtain ⟨writtenLow, readLow⟩ := value?_digit (b.toNat % 16) (by omega)
      have written : Text.encodeChars ((b :: bs).flatMap byteChars) =
          UInt8.ofNat (digit (b.toNat / 16)).toNat :: UInt8.ofNat (digit (b.toNat % 16)).toNat ::
            Text.encodeChars (bs.flatMap byteChars) := by
        simp [Text.encodeChars, byteChars, writtenHigh, writtenLow]
      have whole : b.toNat / 16 * 16 + b.toNat % 16 = b.toNat := by omega
      refine ⟨?_, fun position => ?_⟩
      · rw [written, List.length_cons, List.length_cons]
        omega
      · rw [written, decodeFrom, readHigh, readLow]
        simp [ih.2, whole, bind, Except.bind, pure, Except.pure]
  rw [decode, encode, Text.encode, String.toList_ofList, if_pos (digits bs).1, (digits bs).2]

end HostTrust.Hex
