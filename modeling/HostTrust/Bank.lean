/-
HostTrust.Bank — digest algorithms, which are also the banks of a TPM.

A bank keeps registers as wide as its digest. A register starts at zero and is
only ever extended: its new value is the digest of its old value followed by a
measurement. `replay` extends a fresh register by measurements written in
hexadecimal digits.
-/
import HostTrust.Digest.Sha1
import HostTrust.Digest.Sha256
import HostTrust.Digest.Sha512
import HostTrust.Hex
import HostTrust.Text.Blank

namespace HostTrust

/-- A digest algorithm, and the bank of registers that it extends. -/
inductive Bank where
  | sha1
  | sha256
  | sha384
  | sha512
  deriving DecidableEq, Repr

/-- Why measurements cannot be replayed: the first one that is not hexadecimal. -/
structure ReplayFailure where
  position : Nat
  reason : Hex.Failure
  deriving DecidableEq, Repr

namespace Bank

def all : List Bank := [.sha1, .sha256, .sha384, .sha512]

def name : Bank → String
  | .sha1 => "SHA1"
  | .sha256 => "SHA256"
  | .sha384 => "SHA384"
  | .sha512 => "SHA512"

/-- The bank that a text names: blanks around it, letter case and hyphens do not matter. -/
def ofName? (s : String) : Option Bank :=
  match String.ofList ((Text.lower (Text.trim s)).toList.filter (· != '-')) with
  | "sha1" => some .sha1
  | "sha256" => some .sha256
  | "sha384" => some .sha384
  | "sha512" => some .sha512
  | _ => none

/-- The bytes of a digest. -/
def digestSize : Bank → Nat
  | .sha1 => 20
  | .sha256 => 32
  | .sha384 => 48
  | .sha512 => 64

/-- The hexadecimal digits of a digest. -/
def hexLength (b : Bank) : Nat := b.digestSize * 2

/-- Whether a text is the hexadecimal form of a digest of this bank. -/
def acceptsHex (b : Bank) (s : String) : Bool :=
  s.toList.length == b.hexLength && s.toList.all Hex.isDigit

/-- The value of a register that has not been extended. -/
def initial (b : Bank) : Bytes := List.replicate b.digestSize 0

def digest : Bank → Bytes → Bytes
  | .sha1 => Digest.Sha1.digest
  | .sha256 => Digest.Sha256.digest
  | .sha384 => Digest.Sha512.digest384
  | .sha512 => Digest.Sha512.digest

/-- The value of a register after it is extended by a measurement. -/
def extend (b : Bank) (current measurement : Bytes) : Bytes :=
  b.digest (current ++ measurement)

/-- Extends a register by measurements in order; `position` counts the measurements before. -/
def extendAll (b : Bank) (current : Bytes) (position : Nat) :
    List String → Except ReplayFailure Bytes
  | [] => return current
  | m :: rest =>
    match Hex.decode m with
    | .ok bytes => b.extendAll (b.extend current bytes) (position + 1) rest
    | .error reason => throw ⟨position, reason⟩

/-- The value of a fresh register after all measurements, in hexadecimal digits. -/
def replay (b : Bank) (measurements : List String) : Except ReplayFailure String := do
  return Hex.encode (← b.extendAll b.initial 0 measurements)

/-! ## Laws -/

@[simp] theorem length_initial (b : Bank) : b.initial.length = b.digestSize := by
  simp [initial]

@[simp] theorem length_digest (b : Bank) (bytes : Bytes) :
    (b.digest bytes).length = b.digestSize := by
  cases b <;>
    simp [digest, digestSize, Digest.Sha1.digest, Digest.Sha256.digest, Digest.Sha512.digest,
      Digest.Sha512.digest384]

@[simp] theorem length_extend (b : Bank) (current measurement : Bytes) :
    (b.extend current measurement).length = b.digestSize := by
  simp [extend]

end Bank

end HostTrust
