/-
HostTrust.Text.Utf8 — text as bytes and bytes as text.

`encode` writes each character of a text as one to four bytes. `decode` reads
any bytes: it gives the characters in order, with `none` where the bytes are
no character, and it never swallows an ASCII byte on the way, so a reader that
looks for quotes or brackets finds every one of them. The decoder is a fold
over the bytes with a small state, so it runs on long input in constant stack.
What `encode` writes, `decode` reads (`decode_encodeChars`).
-/

namespace HostTrust

/-- A sequence of octets. -/
abbrev Bytes := List UInt8

namespace Text

/-- What stands at a place of a byte sequence: a character, or bytes that are none. -/
abbrev Letter := Option Char

/-- The bytes of a list of characters. -/
def encodeChars (cs : List Char) : Bytes :=
  cs.flatMap String.utf8EncodeChar

/-- The bytes of a text. -/
def encode (s : String) : Bytes := encodeChars s.toList

/-- A decoder in the middle of its input. -/
structure Utf8State where
  /-- The letters read so far, the latest first. -/
  letters : List Letter
  /-- How many continuation bytes the character in hand still needs. -/
  awaited : Nat
  /-- The number of the character in hand, as far as it is known. -/
  value : Nat
  /-- The least number that needs as many bytes as the character in hand has. -/
  least : Nat

namespace Utf8State

def initial : Utf8State := ⟨[], 0, 0, 0⟩

/-- A complete character must need all its bytes and must not be a surrogate. -/
def letterOf (value least : Nat) : Letter :=
  if least ≤ value ∧ value.isValidChar then some (Char.ofNat value) else none

/-- Takes a byte at which a character begins. -/
def lead (letters : List Letter) (b : UInt8) : Utf8State :=
  let n := b.toNat
  if n < 0x80 then ⟨some (Char.ofNat n) :: letters, 0, 0, 0⟩
  else if n < 0xC0 then ⟨none :: letters, 0, 0, 0⟩
  else if n < 0xE0 then ⟨letters, 1, n - 0xC0, 0x80⟩
  else if n < 0xF0 then ⟨letters, 2, n - 0xE0, 0x800⟩
  else if n < 0xF8 then ⟨letters, 3, n - 0xF0, 0x10000⟩
  else ⟨none :: letters, 0, 0, 0⟩

/-- Takes one byte. -/
def feed (s : Utf8State) (b : UInt8) : Utf8State :=
  match s.awaited with
  | 0 => lead s.letters b
  | more + 1 =>
    if 0x80 ≤ b.toNat ∧ b.toNat < 0xC0 then
      let value := s.value * 64 + (b.toNat - 0x80)
      match more with
      | 0 => ⟨letterOf value s.least :: s.letters, 0, 0, 0⟩
      | _ + 1 => ⟨s.letters, more, value, s.least⟩
    else lead (none :: s.letters) b

/-- The letters read, in order; a character cut short at the end is none. -/
def finish (s : Utf8State) : List Letter :=
  (if s.awaited = 0 then s.letters else none :: s.letters).reverse

end Utf8State

/-- The letters that a byte sequence spells. -/
def decode (bs : Bytes) : List Letter :=
  (bs.foldl Utf8State.feed Utf8State.initial).finish

/-- The text that a byte sequence spells, if it spells one throughout. -/
def decode? (bs : Bytes) : Option String :=
  let letters := decode bs
  if letters.all Option.isSome then some (String.ofList (letters.filterMap id)) else none

/-! ## Laws -/

namespace Utf8State

theorem toNat_ofNat_byte {n : Nat} (h : n < 256) : (UInt8.ofNat n).toNat = n := by
  rw [UInt8.toNat_ofNat']
  exact Nat.mod_eq_of_lt h

theorem letterOf_of_char (c : Char) {value least : Nat} (whole : value = c.val.toNat)
    (needed : least ≤ value) : letterOf value least = some c := by
  have valid : value.isValidChar := whole ▸ c.valid
  have same : Char.ofNat value = c := whole ▸ Char.ofNat_toNat c
  rw [letterOf, if_pos ⟨needed, valid⟩, same]

/-! The first byte of a character, with the content `n` of the byte. -/

theorem feed_leadOne (letters : List Letter) {n : Nat} (h : n < 0x80) :
    feed ⟨letters, 0, 0, 0⟩ (UInt8.ofNat n) = ⟨some (Char.ofNat n) :: letters, 0, 0, 0⟩ := by
  simp only [feed, lead, toNat_ofNat_byte (show n < 256 by omega)]
  rw [if_pos h]

theorem feed_leadTwo (letters : List Letter) {n : Nat} (h : n < 32) :
    feed ⟨letters, 0, 0, 0⟩ (UInt8.ofNat (n + 192)) = ⟨letters, 1, n, 0x80⟩ := by
  simp only [feed, lead, toNat_ofNat_byte (show n + 192 < 256 by omega)]
  rw [if_neg (by omega), if_neg (by omega), if_pos (by omega), Nat.add_sub_cancel]

theorem feed_leadThree (letters : List Letter) {n : Nat} (h : n < 16) :
    feed ⟨letters, 0, 0, 0⟩ (UInt8.ofNat (n + 224)) = ⟨letters, 2, n, 0x800⟩ := by
  simp only [feed, lead, toNat_ofNat_byte (show n + 224 < 256 by omega)]
  rw [if_neg (by omega), if_neg (by omega), if_neg (by omega), if_pos (by omega),
    Nat.add_sub_cancel]

theorem feed_leadFour (letters : List Letter) {n : Nat} (h : n < 8) :
    feed ⟨letters, 0, 0, 0⟩ (UInt8.ofNat (n + 240)) = ⟨letters, 3, n, 0x10000⟩ := by
  simp only [feed, lead, toNat_ofNat_byte (show n + 240 < 256 by omega)]
  rw [if_neg (by omega), if_neg (by omega), if_neg (by omega), if_neg (by omega),
    if_pos (by omega), Nat.add_sub_cancel]

/-- A byte that continues a character adds its content; the last one completes the character. -/
theorem feed_continuation (letters : List Letter) (more value least : Nat) {n : Nat}
    (h : n < 64) : feed ⟨letters, more + 1, value, least⟩ (UInt8.ofNat (n + 128)) =
      if more = 0 then ⟨letterOf (value * 64 + n) least :: letters, 0, 0, 0⟩
      else ⟨letters, more, value * 64 + n, least⟩ := by
  have byte : (UInt8.ofNat (n + 128)).toNat = n + 128 := toNat_ofNat_byte (by omega)
  have range : 0x80 ≤ n + 128 ∧ n + 128 < 0xC0 := by omega
  simp only [feed, byte, range, and_self, if_true, show n + 128 - 0x80 = n by omega]
  cases more with
  | zero => rfl
  | succ more => rfl

/-- The bytes of a character are read as this character. -/
theorem foldl_feed_encodeChar (c : Char) (letters : List Letter) :
    (String.utf8EncodeChar c).foldl feed ⟨letters, 0, 0, 0⟩ = ⟨some c :: letters, 0, 0, 0⟩ := by
  have bound : c.val.toNat < 0x110000 := by
    have valid : c.val.toNat.isValidChar := c.valid
    rcases valid with low | ⟨-, high⟩ <;> omega
  unfold String.utf8EncodeChar
  generalize whole : c.val.toNat = n at bound
  simp only
  -- One case for each number of bytes.
  split
  · have same : Char.ofNat n = c := whole ▸ Char.ofNat_toNat c
    rw [List.foldl_cons, feed_leadOne _ (by omega), same, List.foldl_nil]
  · split
    · rw [List.foldl_cons, feed_leadTwo _ (by omega), List.foldl_cons,
        feed_continuation _ _ _ _ (by omega), if_pos rfl, List.foldl_nil,
        letterOf_of_char c (by omega) (by omega)]
    · split
      · rw [List.foldl_cons, feed_leadThree _ (by omega), List.foldl_cons,
          feed_continuation _ _ _ _ (by omega), if_neg (by decide), List.foldl_cons,
          feed_continuation _ _ _ _ (by omega), if_pos rfl, List.foldl_nil,
          letterOf_of_char c (by omega) (by omega)]
      · rw [List.foldl_cons, feed_leadFour _ (by omega), List.foldl_cons,
          feed_continuation _ _ _ _ (by omega), if_neg (by decide), List.foldl_cons,
          feed_continuation _ _ _ _ (by omega), if_neg (by decide), List.foldl_cons,
          feed_continuation _ _ _ _ (by omega), if_pos rfl, List.foldl_nil,
          letterOf_of_char c (by omega) (by omega)]

theorem foldl_feed_encodeChars (cs : List Char) (letters : List Letter) :
    (encodeChars cs).foldl feed ⟨letters, 0, 0, 0⟩ =
      ⟨(cs.map some).reverse ++ letters, 0, 0, 0⟩ := by
  induction cs generalizing letters with
  | nil => rfl
  | cons c cs ih =>
    have bytes : encodeChars (c :: cs) = String.utf8EncodeChar c ++ encodeChars cs := rfl
    rw [bytes, List.foldl_append, foldl_feed_encodeChar, ih]
    simp

end Utf8State

/-- The bytes of a text spell the text. -/
theorem decode_encodeChars (cs : List Char) : decode (encodeChars cs) = cs.map some := by
  unfold decode Utf8State.initial
  rw [Utf8State.foldl_feed_encodeChars]
  simp [Utf8State.finish]

end Text

end HostTrust
