/-
HostTrust.Digest.Sha1 — the Secure Hash Algorithm with a digest of 20 bytes.

Each block of 16 words is expanded to 80; every word drives one round on a
state of five words. The digest has 20 bytes by construction.
-/
import HostTrust.Digest.Words

namespace HostTrust.Digest

/-- Rotation to the left. -/
def rotateLeft (x : UInt32) (n : UInt32) : UInt32 := (x <<< n) ||| (x >>> (32 - n))

namespace Sha1

structure State where
  a : UInt32
  b : UInt32
  c : UInt32
  d : UInt32
  e : UInt32
  deriving DecidableEq, Repr

def initial : State := ⟨0x67452301, 0xEFCDAB89, 0x98BADCFE, 0x10325476, 0xC3D2E1F0⟩

/-- Adds `more` words to a schedule that is held latest first. -/
def expand : (more : Nat) → List UInt32 → List UInt32
  | 0, ws => ws
  | more + 1, ws =>
    let w := rotateLeft (ws.getD 2 0 ^^^ ws.getD 7 0 ^^^ ws.getD 13 0 ^^^ ws.getD 15 0) 1
    expand more (w :: ws)

/-- The 80 words that drive the rounds of a block. -/
def schedule (block : Bytes) : List UInt32 :=
  (expand 64 ((wordsOf 4 16 block).map UInt32.ofNat).reverse).reverse

/-- The mixing function and the constant of a round. -/
def mixing (round : Nat) (b c d : UInt32) : UInt32 × UInt32 :=
  if round < 20 then ((b &&& c) ||| (~~~b &&& d), 0x5A827999)
  else if round < 40 then (b ^^^ c ^^^ d, 0x6ED9EBA1)
  else if round < 60 then ((b &&& c) ||| (b &&& d) ||| (c &&& d), 0x8F1BBCDC)
  else (b ^^^ c ^^^ d, 0xCA62C1D6)

def round (s : State) (step : UInt32 × Nat) : State :=
  let (f, k) := mixing step.2 s.b s.c s.d
  ⟨rotateLeft s.a 5 + f + s.e + k + step.1, s.a, rotateLeft s.b 30, s.c, s.d⟩

def compress (s : State) (block : Bytes) : State :=
  let t := (schedule block).zipIdx.foldl round s
  ⟨s.a + t.a, s.b + t.b, s.c + t.c, s.d + t.d, s.e + t.e⟩

def State.toBytes (s : State) : Bytes :=
  [s.a, s.b, s.c, s.d, s.e].flatMap fun w => bigEndian 4 w.toNat

@[simp] theorem State.length_toBytes (s : State) : s.toBytes.length = 20 := by
  simp [State.toBytes]

def digest (message : Bytes) : Bytes :=
  (run compress 64 8 initial message).toBytes

end Sha1

end HostTrust.Digest
