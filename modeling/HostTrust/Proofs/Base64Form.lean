/-
HostTrust.Proofs.Base64Form — the written form of bytes in base 64, and the two
readers of it.

Certificates and signatures are read group by group (`Base64.decodeChars`), the
bodies of PEM blocks as one number in base 64 that is cut into bytes
(`Pem.decodeBody`). Here bytes are written (`Base64.encodeChars`): six bits a
digit, and the last group filled up. Both readers give back what was written, so
they agree wherever a text has the written form.

The reader of bodies is treated through the number: writing keeps the number,
apart from zeros behind it (`Base64.foldl_sextets`), and cutting a number into
bytes gives the bytes that write it (`Digest.bytes_ofBigEndian`).
-/
import HostTrust.Certificate.Pem
import HostTrust.Digest.Words
import Mathlib.Data.List.Induction

namespace HostTrust

namespace Base64

/-! ## Writing -/

/-- The digit of a number below 64. -/
def digit (n : Nat) : Char :=
  "ABCDEFGHIJKLMNOPQRSTUVWXYZabcdefghijklmnopqrstuvwxyz0123456789+/".toList.getD n '='

/-- The bits of the bytes by sixes; zeros fill up the last six. -/
def sextets : Bytes → List Nat
  | [] => []
  | [a] => [a.toNat / 4, a.toNat % 4 * 16]
  | [a, b] => [a.toNat / 4, a.toNat % 4 * 16 + b.toNat / 16, b.toNat % 16 * 4]
  | a :: b :: c :: rest =>
    a.toNat / 4 :: (a.toNat % 4 * 16 + b.toNat / 16) :: (b.toNat % 16 * 4 + c.toNat / 64) ::
      c.toNat % 64 :: sextets rest

/-- What fills up the last group of four. -/
def fill (bs : Bytes) : List Char := List.replicate ((3 - bs.length % 3) % 3) '='

/-- Bytes in base 64. -/
def encodeChars (bs : Bytes) : List Char := (sextets bs).map digit ++ fill bs

theorem sextets_lt (bs : Bytes) : ∀ n ∈ sextets bs, n < 64 := by
  fun_induction sextets bs with
  | case1 => simp
  | case2 a =>
    have := a.toNat_lt
    simp
    omega
  | case3 a b =>
    have := a.toNat_lt
    have := b.toNat_lt
    simp
    omega
  | case4 a b c rest ih =>
    have := a.toNat_lt
    have := b.toNat_lt
    have := c.toNat_lt
    simp only [List.forall_mem_cons]
    exact ⟨by omega, by omega, by omega, by omega, ih⟩

theorem length_sextets (bs : Bytes) : (sextets bs).length = (4 * bs.length + 2) / 3 := by
  fun_induction sextets bs with
  | case1 => rfl
  | case2 => simp
  | case3 => simp
  | case4 a b c rest ih =>
    simp only [List.length_cons, ih]
    omega

theorem length_fill (bs : Bytes) : (fill bs).length = (3 - bs.length % 3) % 3 :=
  List.length_replicate

/-- Three bytes make a group of their own. -/
theorem encodeChars_cons (a b c : UInt8) (rest : Bytes) :
    encodeChars (a :: b :: c :: rest) =
      digit (a.toNat / 4) :: digit (a.toNat % 4 * 16 + b.toNat / 16) ::
        digit (b.toNat % 16 * 4 + c.toNat / 64) :: digit (c.toNat % 64) :: encodeChars rest := by
  have size : (rest.length + 1 + 1 + 1) % 3 = rest.length % 3 := by omega
  simp [encodeChars, sextets, fill, size]

theorem encodeChars_eq_nil_iff {bs : Bytes} : encodeChars bs = [] ↔ bs = [] := by
  constructor
  · intro none
    have length := length_sextets bs
    rw [encodeChars, List.append_eq_nil_iff, List.map_eq_nil_iff] at none
    rw [none.1, List.length_nil] at length
    exact List.length_eq_zero_iff.mp (by omega)
  · rintro rfl
    rfl

/-! ## Signs -/

/-- A sign of the written form: it can be seen, and is neither a dash nor a colon. -/
structure IsSign (c : Char) : Prop where
  visible : 0x20 < c.toNat
  notDash : c ≠ '-'
  notColon : c ≠ ':'

theorem digit_laws : ∀ n < 64, value? (digit n) = some n ∧ digit n ≠ '=' ∧
    0x20 < (digit n).toNat ∧ digit n ≠ '-' ∧ digit n ≠ ':' := by
  decide +kernel

theorem value?_digit {n : Nat} (h : n < 64) : value? (digit n) = some n := (digit_laws n h).1

theorem digit_ne_fill {n : Nat} (h : n < 64) : digit n ≠ '=' := (digit_laws n h).2.1

theorem isSign_of_mem_encodeChars {bs : Bytes} {c : Char} (h : c ∈ encodeChars bs) : IsSign c := by
  rcases List.mem_append.mp h with digits | filled
  · obtain ⟨n, hn, rfl⟩ := List.mem_map.mp digits
    obtain ⟨-, -, visible, notDash, notColon⟩ := digit_laws n (sextets_lt bs n hn)
    exact ⟨visible, notDash, notColon⟩
  · obtain rfl := List.eq_of_mem_replicate filled
    exact ⟨by decide, by decide, by decide⟩

/-! ## Reading by groups -/

theorem ofNat_eq {n : Nat} {b : UInt8} (h : n = b.toNat) : UInt8.ofNat n = b := by
  rw [h, UInt8.ofNat_toNat]

theorem fullGroup_sextets (a b c : UInt8) :
    fullGroup (a.toNat / 4) (a.toNat % 4 * 16 + b.toNat / 16) (b.toNat % 16 * 4 + c.toNat / 64)
      (c.toNat % 64) = [a, b, c] := by
  have := a.toNat_lt
  have := b.toNat_lt
  have := c.toNat_lt
  rw [fullGroup, ofNat_eq (b := a) (by omega), ofNat_eq (b := b) (by omega),
    ofNat_eq (b := c) (by omega)]

theorem lastGroup_one (a : UInt8) :
    lastGroup (digit (a.toNat / 4)) (digit (a.toNat % 4 * 16)) '=' '=' = some [a] := by
  have := a.toNat_lt
  have byte : UInt8.ofNat (a.toNat / 4 * 4 + a.toNat % 4 * 16 / 16) = a := ofNat_eq (by omega)
  have spare : a.toNat % 4 * 16 % 16 = 0 := by omega
  rw [lastGroup, value?_digit (by omega), value?_digit (by omega)]
  simp only [Option.bind_eq_bind, Option.bind_some, if_true, true_and, spare, byte]

theorem lastGroup_two (a b : UInt8) :
    lastGroup (digit (a.toNat / 4)) (digit (a.toNat % 4 * 16 + b.toNat / 16))
      (digit (b.toNat % 16 * 4)) '=' = some [a, b] := by
  have := a.toNat_lt
  have := b.toNat_lt
  have byte : UInt8.ofNat (a.toNat / 4 * 4 + (a.toNat % 4 * 16 + b.toNat / 16) / 16) = a :=
    ofNat_eq (by omega)
  have next : UInt8.ofNat ((a.toNat % 4 * 16 + b.toNat / 16) % 16 * 16 +
      b.toNat % 16 * 4 / 4) = b := ofNat_eq (by omega)
  have spare : b.toNat % 16 * 4 % 4 = 0 := by omega
  rw [lastGroup, value?_digit (by omega), value?_digit (by omega), value?_digit (by omega)]
  simp only [Option.bind_eq_bind, Option.bind_some, if_true, spare, byte, next,
    if_neg (digit_ne_fill (n := b.toNat % 16 * 4) (by omega))]

theorem lastGroup_three (a b c : UInt8) :
    lastGroup (digit (a.toNat / 4)) (digit (a.toNat % 4 * 16 + b.toNat / 16))
      (digit (b.toNat % 16 * 4 + c.toNat / 64)) (digit (c.toNat % 64)) = some [a, b, c] := by
  have := a.toNat_lt
  have := b.toNat_lt
  have := c.toNat_lt
  rw [lastGroup, value?_digit (by omega), value?_digit (by omega), value?_digit (by omega),
    value?_digit (by omega)]
  simp only [Option.bind_eq_bind, Option.bind_some, fullGroup_sextets,
    if_neg (digit_ne_fill (n := b.toNat % 16 * 4 + c.toNat / 64) (by omega)),
    if_neg (digit_ne_fill (n := c.toNat % 64) (by omega))]

/-- What was written is read again, group by group. -/
theorem decodeChars_encodeChars (bs : Bytes) : decodeChars (encodeChars bs) = some bs := by
  fun_induction sextets bs with
  | case1 => rfl
  | case2 a => exact lastGroup_one a
  | case3 a b => exact lastGroup_two a b
  | case4 a b c rest ih =>
    have := a.toNat_lt
    have := b.toNat_lt
    have := c.toNat_lt
    rw [encodeChars_cons, decodeChars]
    by_cases last : rest = []
    · subst last
      exact lastGroup_three a b c
    · have more : (encodeChars rest).isEmpty = false := by
        rw [List.isEmpty_eq_false_iff]
        exact mt encodeChars_eq_nil_iff.mp last
      rw [more, value?_digit (by omega), value?_digit (by omega), value?_digit (by omega),
        value?_digit (by omega), ih]
      simp only [Bool.false_eq_true, if_false, Option.bind_eq_bind, Option.bind_some,
        fullGroup_sextets, List.cons_append, List.nil_append]

/-! ## Reading as a number -/

/-- Writing keeps the number, apart from the zeros that fill up the last six bits. -/
theorem foldl_sextets (bs : Bytes) (start : Nat) :
    (sextets bs).foldl (fun n v => n * 64 + v) start =
      bs.foldl (fun n b => n * 256 + b.toNat) start <<< (2 * ((3 - bs.length % 3) % 3)) := by
  fun_induction sextets bs generalizing start with
  | case1 => rfl
  | case2 a =>
    simp [Nat.shiftLeft_eq]
    omega
  | case3 a b =>
    simp [Nat.shiftLeft_eq]
    omega
  | case4 a b c rest ih =>
    have size : (a :: b :: c :: rest).length % 3 = rest.length % 3 := by
      simp only [List.length_cons]
      omega
    have group : (((start * 64 + a.toNat / 4) * 64 + (a.toNat % 4 * 16 + b.toNat / 16)) * 64 +
        (b.toNat % 16 * 4 + c.toNat / 64)) * 64 + c.toNat % 64 =
          ((start * 256 + a.toNat) * 256 + b.toNat) * 256 + c.toNat := by
      omega
    rw [size]
    simp only [List.foldl_cons, group]
    exact ih _

end Base64

/-- Cutting a number into bytes gives the bytes that write it. -/
theorem Digest.bytes_ofBigEndian (bs : Bytes) :
    (List.range bs.length).map (fun k =>
      UInt8.ofNat (ofBigEndian bs >>> (8 * (bs.length - 1 - k)))) = bs := by
  induction bs using List.reverseRecOn with
  | nil => rfl
  | append_singleton bs b ih =>
    have hb := b.toNat_lt
    have number : ofBigEndian (bs ++ [b]) = ofBigEndian bs * 256 + b.toNat := by
      simp [ofBigEndian]
    have last : UInt8.ofNat ((ofBigEndian bs * 256 + b.toNat) >>> 0) = b := by
      apply UInt8.toNat_inj.mp
      simp
    have before : (List.range bs.length).map (fun k =>
        UInt8.ofNat ((ofBigEndian bs * 256 + b.toNat) >>> (8 * (bs.length - k)))) = bs := by
      conv => rhs; rw [← ih]
      refine List.map_congr_left fun k hk => ?_
      have inside := List.mem_range.mp hk
      have shift : 8 * (bs.length - k) = 8 + 8 * (bs.length - 1 - k) := by omega
      rw [shift, Nat.shiftRight_add]
      congr 2
      rw [Nat.shiftRight_eq_div_pow]
      omega
    rw [number, List.length_append, List.length_singleton, List.range_succ, List.map_append,
      Nat.add_sub_cancel, before, List.map_singleton, Nat.sub_self, Nat.mul_zero, last]

namespace Pem

open Base64

theorem mapM_value?_digits {ns : List Nat} (h : ∀ n ∈ ns, n < 64) :
    (ns.map digit).mapM value? = some ns := by
  induction ns with
  | nil => rfl
  | cons n ns ih =>
    obtain ⟨first, others⟩ := List.forall_mem_cons.mp h
    simp [value?_digit first, ih others]

theorem ne_fill_of_mem_digits {bs : Bytes} :
    ∀ c ∈ (sextets bs).map digit, (c != '=') = true := by
  intro c hc
  obtain ⟨n, hn, rfl⟩ := List.mem_map.mp hc
  exact bne_iff_ne.mpr (digit_ne_fill (sextets_lt bs n hn))

theorem takeWhile_encodeChars (bs : Bytes) :
    (encodeChars bs).takeWhile (· != '=') = (sextets bs).map digit := by
  rw [encodeChars, List.takeWhile_append_of_pos ne_fill_of_mem_digits, fill]
  cases (3 - bs.length % 3) % 3 <;> simp [List.replicate_succ]

theorem dropWhile_encodeChars (bs : Bytes) :
    (encodeChars bs).dropWhile (· != '=') = fill bs := by
  rw [encodeChars, List.dropWhile_append_of_pos ne_fill_of_mem_digits, fill]
  cases (3 - bs.length % 3) % 3 <;> simp [List.replicate_succ]

theorem filter_encodeChars (bs : Bytes) :
    (encodeChars bs).filter (fun c => 0x20 < c.toNat) = encodeChars bs :=
  List.filter_eq_self.mpr fun _ hc => by simpa using (isSign_of_mem_encodeChars hc).visible

/-- What was written is read again, as a number. -/
theorem decodeBody_encodeChars {bs : Bytes} (h : bs ≠ []) :
    decodeBody (encodeChars bs) = some bs := by
  have digits : ((sextets bs).map digit).length = (4 * bs.length + 2) / 3 := by
    rw [List.length_map, length_sextets]
  have wellFormed : (encodeChars bs).length % 4 = 0 ∧ (fill bs).length ≤ 2 ∧
      (fill bs).all (· == '=') = true ∧ (!(encodeChars bs).isEmpty) = true := by
    refine ⟨?_, ?_, ?_, ?_⟩
    · have part : bs.length % 3 = 0 ∨ bs.length % 3 = 1 ∨ bs.length % 3 = 2 := by omega
      rw [encodeChars, List.length_append, digits, length_fill]
      rcases part with part | part | part <;> rw [part] <;> omega
    · rw [length_fill]
      omega
    · simp [fill]
    · rw [Bool.not_eq_true', List.isEmpty_eq_false_iff]
      exact mt encodeChars_eq_nil_iff.mp h
  have size : (4 * bs.length + 2) / 3 * 6 / 8 = bs.length := by omega
  have spare : (4 * bs.length + 2) / 3 * 6 % 8 = 2 * ((3 - bs.length % 3) % 3) := by omega
  simp only [decodeBody, filter_encodeChars, takeWhile_encodeChars, dropWhile_encodeChars]
  rw [if_pos wellFormed, mapM_value?_digits (sextets_lt bs), digits, size, spare]
  simp only [Option.bind_eq_bind, Option.bind_some, foldl_sextets]
  refine congrArg some (Eq.trans ?_ (Digest.bytes_ofBigEndian bs))
  refine List.map_congr_left fun k _ => ?_
  rw [Nat.shiftRight_add, Nat.shiftLeft_shiftRight, Digest.ofBigEndian]

end Pem

end HostTrust
