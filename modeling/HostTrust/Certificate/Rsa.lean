/-
HostTrust.Certificate.Rsa — signatures with RSA keys, in the form that fills up
the digest with ones.

A signature is as long as the modulus and below it. Raised to the exponent it
must be the padding, a prefix that names the digest algorithm, and the digest.
-/
import HostTrust.Bank

namespace HostTrust

/-- The public key of a signer. -/
structure RsaKey where
  modulus : Nat
  exponent : Nat
  deriving DecidableEq, Repr

namespace RsaKey

/-- The power `base` ^ `exponent` modulo `modulus`, by squaring; `bits` bounds the length of the
exponent. -/
def power (modulus : Nat) : (bits : Nat) → (base exponent : Nat) → Nat
  | 0, _, _ => 1 % modulus
  | bits + 1, base, exponent =>
    let half := power modulus bits (base * base % modulus) (exponent / 2)
    if exponent % 2 = 1 then half * base % modulus else half

/-- The bytes of the modulus. -/
def size (k : RsaKey) : Nat := (k.modulus.log2 + 8) / 8

/-- What names a digest algorithm in front of a digest. -/
def digestPrefix : Bank → Bytes
  | .sha1 =>
    [0x30, 0x21, 0x30, 0x09, 0x06, 0x05, 0x2B, 0x0E, 0x03, 0x02, 0x1A, 0x05, 0x00, 0x04, 0x14]
  | .sha256 =>
    [0x30, 0x31, 0x30, 0x0D, 0x06, 0x09, 0x60, 0x86, 0x48, 0x01, 0x65, 0x03, 0x04, 0x02, 0x01,
      0x05, 0x00, 0x04, 0x20]
  | .sha384 =>
    [0x30, 0x41, 0x30, 0x0D, 0x06, 0x09, 0x60, 0x86, 0x48, 0x01, 0x65, 0x03, 0x04, 0x02, 0x02,
      0x05, 0x00, 0x04, 0x30]
  | .sha512 =>
    [0x30, 0x51, 0x30, 0x0D, 0x06, 0x09, 0x60, 0x86, 0x48, 0x01, 0x65, 0x03, 0x04, 0x02, 0x03,
      0x05, 0x00, 0x04, 0x40]

/-- What a signature of `size` bytes must be when it is raised to the exponent. -/
def signedForm (size : Nat) (bank : Bank) (message : Bytes) : Bytes :=
  let tail := 0x00 :: digestPrefix bank ++ bank.digest message
  0x00 :: 0x01 :: List.replicate (size - 2 - tail.length) 0xFF ++ tail

/-- Whether a signature over a message is the key's. -/
def verifies (k : RsaKey) (bank : Bank) (message signature : Bytes) : Bool :=
  let s := Digest.ofBigEndian signature
  signature.length == k.size && s < k.modulus &&
    Digest.bigEndian k.size (power k.modulus (k.exponent.log2 + 1) s k.exponent) ==
      signedForm k.size bank message

end RsaKey

end HostTrust
