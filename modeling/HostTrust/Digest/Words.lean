/-
HostTrust.Digest.Words — what the digest functions share: words of bytes, most
significant byte first, and the padding of a message to whole blocks.

A padded message is the message, one bit, zeros, and the message's length in
bits, which ends the last block.
-/
import HostTrust.Text.Utf8

namespace HostTrust.Digest

/-- A number in `size` bytes, most significant first. -/
def bigEndian : (size : Nat) → (n : Nat) → Bytes
  | 0, _ => []
  | size + 1, n => UInt8.ofNat (n / Nat.pow 256 size) :: bigEndian size n

/-- The number that bytes write, most significant first. -/
def ofBigEndian (bs : Bytes) : Nat :=
  bs.foldl (fun n b => n * 256 + b.toNat) 0

@[simp] theorem length_bigEndian (size n : Nat) : (bigEndian size n).length = size := by
  induction size with
  | zero => rfl
  | succ size ih => simp [bigEndian, ih]

/-- The words of `size` bytes each that make up the first `count` words of a block. -/
def wordsOf (size : Nat) : (count : Nat) → Bytes → List Nat
  | 0, _ => []
  | count + 1, bs => ofBigEndian (bs.take size) :: wordsOf size count (bs.drop size)

/-- A message with its padding; `blockSize` and `lengthSize` count bytes. -/
def padded (blockSize lengthSize : Nat) (message : Bytes) : Bytes :=
  let used := message.length + 1 + lengthSize
  message ++ 0x80 :: List.replicate ((blockSize - used % blockSize) % blockSize) 0 ++
    bigEndian lengthSize (message.length * 8)

/-- Feeds `count` blocks to a compression function. -/
def absorb {σ : Type} (compress : σ → Bytes → σ) (blockSize : Nat) : Nat → σ → Bytes → σ
  | 0, state, _ => state
  | count + 1, state, bs =>
    absorb compress blockSize count (compress state (bs.take blockSize)) (bs.drop blockSize)

/-- The state after a whole message. -/
def run {σ : Type} (compress : σ → Bytes → σ) (blockSize lengthSize : Nat) (initial : σ)
    (message : Bytes) : σ :=
  let bs := padded blockSize lengthSize message
  absorb compress blockSize (bs.length / blockSize) initial bs

end HostTrust.Digest
