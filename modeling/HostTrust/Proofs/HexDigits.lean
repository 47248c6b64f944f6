/-
HostTrust.Proofs.HexDigits — the texts that write bytes in hexadecimal digits.

Reading takes the bytes of a text in pairs, while a check of a digest looks at its
characters. Both mean the same texts: a digit is one byte with a value, and any
other character has a byte without one (`isSome_values_iff`). So a text writes `n`
bytes exactly if it consists of `2 * n` digits (`exists_decode_iff`), and a text
passes the check of a digest exactly if it writes as many bytes as the digest has
(`Bank.acceptsHex_iff`).
-/
import HostTrust.Bank
import HostTrust.Proofs.Outcome

namespace HostTrust

open Outcome

namespace Hex

/-! ## Digits as bytes -/

theorem isSome_value?_ofNat : ∀ n < 128,
    (value? (UInt8.ofNat n)).isSome = isDigit (Char.ofNat n) := by
  decide

/-- The bytes of the characters beyond ASCII have no value. -/
theorem value?_of_high {x : UInt8} (high : 128 ≤ x.toNat) : value? x = none := by
  simp only [value?]
  rw [if_neg (by omega), if_neg (by omega), if_neg (by omega)]

theorem toNat_lt_of_isDigit {c : Char} (h : isDigit c = true) : c.toNat < 128 := by
  have below : ∀ {d : Char}, c ≤ d → c.toNat ≤ d.toNat := fun le => le
  simp only [isDigit, Bool.or_eq_true, Bool.and_eq_true, decide_eq_true_eq] at h
  rcases h with (⟨-, le⟩ | ⟨-, le⟩) | ⟨-, le⟩ <;>
    exact Nat.lt_of_le_of_lt (below le) (by decide)

theorem encodeChar_of_lt {c : Char} (ascii : c.toNat < 128) :
    String.utf8EncodeChar c = [UInt8.ofNat c.toNat] := by
  have small : c.val.toNat ≤ 127 := Nat.le_of_lt_succ ascii
  simp only [String.utf8EncodeChar, if_pos small]
  rfl

/-- Beyond ASCII the first byte of a character is a high one. -/
theorem exists_high_of_le {c : Char} (beyond : 128 ≤ c.toNat) :
    ∃ x ∈ String.utf8EncodeChar c, 128 ≤ x.toNat := by
  have large : ¬c.val.toNat ≤ 127 := Nat.not_le_of_lt beyond
  have high : ∀ {n : Nat}, 128 ≤ n → n < 256 → 128 ≤ (UInt8.ofNat n).toNat := by
    intro n least bound
    rwa [Text.Utf8State.toNat_ofNat_byte bound]
  simp only [String.utf8EncodeChar, if_neg large]
  split
  · exact ⟨_, List.mem_cons_self, high (by omega) (by omega)⟩
  · split <;> exact ⟨_, List.mem_cons_self, high (by omega) (by omega)⟩

/-- All bytes of a character have a value exactly if it is a digit. -/
theorem isSome_values_iff {c : Char} :
    (∀ x ∈ String.utf8EncodeChar c, (value? x).isSome = true) ↔ isDigit c = true := by
  by_cases ascii : c.toNat < 128
  · rw [encodeChar_of_lt ascii, List.forall_mem_singleton, isSome_value?_ofNat _ ascii,
      Char.ofNat_toNat]
  · obtain ⟨x, hx, high⟩ := exists_high_of_le (Nat.le_of_not_lt ascii)
    refine iff_of_false (fun all => ?_) fun digit => ascii (toNat_lt_of_isDigit digit)
    simpa [value?_of_high high] using all x hx

theorem length_encodeChars_of_digits {cs : List Char} (digits : ∀ c ∈ cs, isDigit c = true) :
    (Text.encodeChars cs).length = cs.length := by
  induction cs with
  | nil => rfl
  | cons c cs ih =>
    obtain ⟨first, rest⟩ := List.forall_mem_cons.mp digits
    rw [Text.encodeChars, List.flatMap_cons, encodeChar_of_lt (toNat_lt_of_isDigit first),
      List.length_append, ← Text.encodeChars, ih rest, List.length_singleton, List.length_cons,
      Nat.add_comm]

/-! ## Reading -/

theorem length_lt_two {bs : Bytes}
    (short : ∀ high low rest, bs = high :: low :: rest → False) : bs.length < 2 := by
  match bs, short with
  | [], _ => simp
  | [_], _ => simp
  | high :: low :: rest, short => exact (short high low rest rfl).elim

/-- A pair of bytes is read as one byte. -/
theorem length_of_decodeFrom {position : Nat} {bs bytes : Bytes}
    (h : decodeFrom position bs = .ok bytes) : bytes.length = bs.length / 2 := by
  fun_induction decodeFrom position bs generalizing bytes with
  | case1 position high low rest _ _ _ _ ih =>
    obtain ⟨others, read, made⟩ := bind_eq_ok_iff.mp h
    cases made
    rw [List.length_cons, ih read, List.length_cons, List.length_cons]
    omega
  | case2 => cases h
  | case3 => cases h
  | case4 bs position short =>
    cases h
    have few := length_lt_two short
    rw [List.length_nil]
    omega

/-- An even number of bytes is read exactly if all of them have a value. -/
theorem exists_decodeFrom_iff {position : Nat} {bs : Bytes} (even : bs.length % 2 = 0) :
    (∃ bytes, decodeFrom position bs = .ok bytes) ↔
      ∀ x ∈ bs, (value? x).isSome = true := by
  fun_induction decodeFrom position bs with
  | case1 position high low rest h l hl hh ih =>
    simp only [List.length_cons] at even
    simp only [bind_eq_ok_iff, pure_eq_ok_iff, List.forall_mem_cons, hh, hl, Option.isSome_some,
      true_and, ← ih (by omega)]
    constructor
    · rintro ⟨_, others, read, -⟩
      exact ⟨others, read⟩
    · rintro ⟨others, read⟩
      exact ⟨_, others, read, rfl⟩
  | case2 position high low rest none => simp [none]
  | case3 position high low rest h none => simp [none]
  | case4 bs position short =>
    have few := length_lt_two short
    obtain rfl : bs = [] := List.length_eq_zero_iff.mp (by omega)
    simp

/-- A text writes `n` bytes exactly if it consists of `2 * n` digits. -/
theorem exists_decode_iff {s : String} {n : Nat} :
    (∃ bytes, decode s = .ok bytes ∧ bytes.length = n) ↔
      s.toList.length = 2 * n ∧ ∀ c ∈ s.toList, isDigit c = true := by
  have values : (∀ x ∈ Text.encode s, (value? x).isSome = true) ↔
      ∀ c ∈ s.toList, isDigit c = true := by
    rw [Text.encode, Text.encodeChars, List.forall_mem_flatMap]
    exact forall₂_congr fun c _ => isSome_values_iff
  constructor
  · rintro ⟨bytes, read, rfl⟩
    rw [decode] at read
    split at read
    case isFalse => cases read
    case isTrue even =>
      have digits := values.mp ((exists_decodeFrom_iff even).mp ⟨bytes, read⟩)
      have length := length_of_decodeFrom read
      rw [Text.encode, length_encodeChars_of_digits digits] at even length
      exact ⟨by omega, digits⟩
  · rintro ⟨length, digits⟩
    have bytes : (Text.encode s).length = 2 * n := by
      rw [Text.encode, length_encodeChars_of_digits digits, length]
    have even : (Text.encode s).length % 2 = 0 := by omega
    obtain ⟨read, hread⟩ : ∃ read, decodeFrom 0 (Text.encode s) = .ok read :=
      (exists_decodeFrom_iff even).mpr (values.mpr digits)
    refine ⟨read, by rw [decode, if_pos even, hread], ?_⟩
    rw [length_of_decodeFrom hread]
    omega

end Hex

/-- The check of a digest accepts the texts that write as many bytes as the digest has. -/
theorem Bank.acceptsHex_iff {b : Bank} {s : String} : b.acceptsHex s = true ↔
    ∃ bytes, Hex.decode s = .ok bytes ∧ bytes.length = b.digestSize := by
  rw [Hex.exists_decode_iff, acceptsHex, hexLength, Nat.mul_comm]
  simp

end HostTrust
