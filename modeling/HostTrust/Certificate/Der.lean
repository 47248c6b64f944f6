/-
HostTrust.Certificate.Der — tagged elements in their distinguished encoding.

An element is a tag of one byte, a length and as many bytes of content. Lengths
up to 127 are one byte; greater ones are preceded by a byte that counts theirs.
Elements of unknown length are refused.
-/
import HostTrust.Digest.Words

namespace HostTrust.Der

/-- A tagged element. -/
structure Element where
  tag : UInt8
  content : Bytes
  /-- The element as it was written. -/
  encoded : Bytes
  deriving DecidableEq, Repr

/-- The length at the start of the input, how many bytes it takes, and the rest. -/
def readLength : Bytes → Option (Nat × Nat × Bytes)
  | [] => none
  | b :: rest =>
    let n := b.toNat
    if n < 0x80 then some (n, 1, rest)
    else if n = 0x80 then none
    else
      let count := n - 0x80
      let digits := rest.take count
      if digits.length = count then
        some (Digest.ofBigEndian digits, count + 1, rest.drop count)
      else none

/-- The element at the start of the input, and the rest. -/
def read (bs : Bytes) : Option (Element × Bytes) :=
  match bs with
  | [] => none
  | tag :: rest => do
    if tag &&& 0x1F = 0x1F then none
    let (length, taken, rest) ← readLength rest
    let content := rest.take length
    if content.length = length then
      some (⟨tag, content, bs.take (1 + taken + length)⟩, rest.drop length)
    else none

/-- The element at the start of the input, which must have a certain tag. -/
def expect (tag : UInt8) (bs : Bytes) : Option (Element × Bytes) := do
  let (e, rest) ← read bs
  if e.tag = tag then some (e, rest) else none

/-- The element at the start of the input, if it has a certain tag. -/
def optional (tag : UInt8) (bs : Bytes) : Option Element × Bytes :=
  match expect tag bs with
  | some (e, rest) => (some e, rest)
  | none => (none, bs)

/-- All elements of the input. -/
def readAll : (steps : Nat) → Bytes → Option (List Element)
  | _, [] => some []
  | 0, _ :: _ => none
  | steps + 1, bs => do
    let (e, rest) ← read bs
    let es ← readAll steps rest
    some (e :: es)

/-- The elements that make up the content of an element. -/
def Element.parts (e : Element) : Option (List Element) := readAll e.content.length e.content

def boolean : UInt8 := 0x01
def integer : UInt8 := 0x02
def bitString : UInt8 := 0x03
def octetString : UInt8 := 0x04
def objectIdentifier : UInt8 := 0x06
def utcTime : UInt8 := 0x17
def generalizedTime : UInt8 := 0x18
def sequence : UInt8 := 0x30
def set : UInt8 := 0x31

/-- The tag of a constructed element that only its context names. -/
def context (n : UInt8) : UInt8 := 0xA0 + n

end HostTrust.Der
