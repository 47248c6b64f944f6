/-
HostTrust.Uuid — identifiers of sixteen bytes.

The written form has 32 small hexadecimal digits in groups of 8, 4, 4, 4 and
12. Reading takes either letter case, the digits without hyphens, and the
hyphenated form in braces or after `urn:uuid:`, in either letter case.
-/
import HostTrust.Hex

namespace HostTrust

/-- An identifier of sixteen bytes. -/
structure Uuid where
  bytes : Bytes
  size : bytes.length = 16
  deriving DecidableEq, Repr

namespace Uuid

/-- The identifier whose bytes are all the same. -/
def ofByte (b : UInt8) : Uuid := ⟨List.replicate 16 b, List.length_replicate⟩

/-- The identifier that 32 hexadecimal digits write. -/
def ofDigits? (digits : List Char) : Option Uuid :=
  if digits.length = 32 then
    match Hex.decode (String.ofList digits) with
    | .ok bytes => if h : bytes.length = 16 then some ⟨bytes, h⟩ else none
    | .error _ => none
  else none

/-- The identifier of the hyphenated form. -/
def ofHyphenated? (cs : List Char) : Option Uuid :=
  let a := cs.take 8
  let b := (cs.drop 9).take 4
  let c := (cs.drop 14).take 4
  let d := (cs.drop 19).take 4
  let e := cs.drop 24
  if cs.length = 36 ∧ cs = a ++ '-' :: b ++ '-' :: c ++ '-' :: d ++ '-' :: e then
    ofDigits? (a ++ b ++ c ++ d ++ e)
  else none

/-- The identifier that a text writes. -/
def ofText? (s : String) : Option Uuid :=
  let cs := s.toList
  if cs.length = 32 then ofDigits? cs
  else if cs.length = 38 then
    if cs.head? = some '\x7b' ∧ cs.getLast? = some '\x7d' then ofHyphenated? (cs.drop 1).dropLast
    else none
  else if cs.length = 45 then
    if (cs.take 9).map Char.toLower = "urn:uuid:".toList then ofHyphenated? (cs.drop 9) else none
  else ofHyphenated? cs

/-- The written form. -/
def display (u : Uuid) : String :=
  let cs := u.bytes.flatMap Hex.byteChars
  String.ofList (cs.take 8 ++ '-' :: (cs.drop 8).take 4 ++ '-' :: (cs.drop 12).take 4 ++
    '-' :: (cs.drop 16).take 4 ++ '-' :: cs.drop 20)

/-! ## Laws -/

theorem length_digits (bs : Bytes) : (bs.flatMap Hex.byteChars).length = 2 * bs.length := by
  induction bs with
  | nil => rfl
  | cons b bs ih =>
    rw [List.flatMap_cons, List.length_append, ih, List.length_cons, Hex.byteChars]
    simp only [List.length_cons, List.length_nil]
    omega

theorem ofDigits?_digits (u : Uuid) : ofDigits? (u.bytes.flatMap Hex.byteChars) = some u := by
  have read := Hex.decode_encode u.bytes
  rw [Hex.encode] at read
  rw [ofDigits?, if_pos (by rw [length_digits, u.size]), read]
  simp [u.size]

theorem ofHyphenated?_eq {a b c d e : List Char} (ha : a.length = 8) (hb : b.length = 4)
    (hc : c.length = 4) (hd : d.length = 4) (he : e.length = 12) :
    ofHyphenated? (a ++ '-' :: b ++ '-' :: c ++ '-' :: d ++ '-' :: e) =
      ofDigits? (a ++ b ++ c ++ d ++ e) := by
  simp [ofHyphenated?, List.drop_append, ha, hb, hc, hd, he, List.drop_of_length_le]

/-- The written form is read back. -/
theorem ofText?_display (u : Uuid) : ofText? u.display = some u := by
  have long : (u.bytes.flatMap Hex.byteChars).length = 32 := by rw [length_digits, u.size]
  have read := ofDigits?_digits u
  rw [display, ofText?]
  generalize u.bytes.flatMap Hex.byteChars = cs at long read
  have whole : cs.take 8 ++ (cs.drop 8).take 4 ++ (cs.drop 12).take 4 ++ (cs.drop 16).take 4 ++
      cs.drop 20 = cs := by
    rw [← List.take_add, ← List.take_add, ← List.take_add, List.take_append_drop]
  have hyphenated := ofHyphenated?_eq (a := cs.take 8) (b := (cs.drop 8).take 4)
    (c := (cs.drop 12).take 4) (d := (cs.drop 16).take 4) (e := cs.drop 20)
    (by simp [long]) (by simp [long]) (by simp [long]) (by simp [long]) (by simp [long])
  rw [whole, read] at hyphenated
  simp only [String.toList_ofList]
  rw [if_neg (by simp [long]), if_neg (by simp [long]), if_neg (by simp [long]), hyphenated]

end Uuid

end HostTrust
