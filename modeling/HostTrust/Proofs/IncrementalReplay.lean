/-
HostTrust.Proofs.IncrementalReplay — a replay goes on from what it has reached.

A replay refuses measurements because of the first that is not hexadecimal, and
names its position (`Bank.FirstUnreadable`, which says so of the list alone). If
all are hexadecimal, it gives the small digits of a digest of the bank, so that
the outcome can always be compared with a reported value. What the digits write
is all that a replay remembers: replaying more measurements extends the register
that they write, each time by the digest of its value followed by the
measurement (`Bank.replay_incremental`).
-/
import HostTrust.Pcr
import HostTrust.Proofs.HexDigits
import HostTrust.Proofs.Replay

namespace HostTrust

open Outcome

namespace Hex

/-- The text consists of hexadecimal digits, an even number of them. -/
def WellFormed (s : String) : Prop :=
  s.toList.length % 2 = 0 ∧ ∀ c ∈ s.toList, isDigit c = true

instance (s : String) : Decidable (WellFormed s) :=
  decidable_of_iff (s.toList.length % 2 = 0 ∧ s.toList.all isDigit = true) (by simp [WellFormed])

/-- These are the texts that can be read. -/
theorem exists_decode_iff_wellFormed {s : String} :
    (∃ bytes, decode s = .ok bytes) ↔ WellFormed s := by
  constructor
  · rintro ⟨bytes, read⟩
    obtain ⟨length, digits⟩ := exists_decode_iff.mp ⟨bytes, read, rfl⟩
    exact ⟨by omega, digits⟩
  · rintro ⟨even, digits⟩
    obtain ⟨bytes, read, -⟩ :=
      exists_decode_iff.mpr ⟨show s.toList.length = 2 * (s.toList.length / 2) by omega, digits⟩
    exact ⟨bytes, read⟩

theorem exists_decode_error_iff {s : String} :
    (∃ reason, decode s = .error reason) ↔ ¬WellFormed s := by
  rw [← exists_decode_iff_wellFormed]
  cases decode s <;> simp

/-- Whether a character is a digit with a small letter, if it has one. -/
def isSmallDigit (c : Char) : Bool := ('0' ≤ c && c ≤ '9') || ('a' ≤ c && c ≤ 'f')

theorem isSmallDigit_digit : ∀ n < 16, isSmallDigit (digit n) = true := by decide

theorem isSmallDigit_of_mem_encode {bs : Bytes} {c : Char} (h : c ∈ (encode bs).toList) :
    isSmallDigit c = true := by
  rw [encode, String.toList_ofList, List.mem_flatMap] at h
  obtain ⟨b, -, written⟩ := h
  have byte : b.toNat < 256 := b.toNat_lt
  rcases List.mem_cons.mp written with rfl | written
  · exact isSmallDigit_digit _ (by omega)
  · obtain rfl := List.mem_singleton.mp written
    exact isSmallDigit_digit _ (by omega)

theorem encode_zeros (n : Nat) :
    encode (List.replicate n 0) = String.ofList (List.replicate (n * 2) '0') := by
  rw [encode]
  congr 1
  induction n with
  | zero => rfl
  | succ n ih =>
    rw [List.replicate_succ, List.flatMap_cons, ih, Nat.succ_mul, Nat.add_comm,
      List.replicate_add]
    rfl

end Hex

theorem MeasurementError.message_unreplayable (f : ReplayFailure) :
    (MeasurementError.unreplayable f).message =
      "Input error: Failed to decode measurement at position " ++ toString f.position ++ ": " ++
        f.reason.message := by
  have begins : "Input error: " ++ "Failed to decode measurement at position " =
      "Input error: Failed to decode measurement at position " := by decide
  have parts : (MeasurementError.unreplayable f).message = "Input error: " ++
      ("Failed to decode measurement at position " ++ toString f.position ++ ": " ++
        f.reason.message) := rfl
  rw [parts, ← begins]
  simp only [String.append_assoc]

namespace Bank

variable {b : Bank} {current : Bytes} {values xs ys : List String} {hash : String}

/-! ## Refusals -/

/-- The failure is that of the first value that cannot be read, and names its position. -/
structure FirstUnreadable (values : List String) (f : ReplayFailure) : Prop where
  here : ∃ v, values[f.position]? = some v ∧ Hex.decode v = .error f.reason
  before : ∀ v ∈ values.take f.position, Hex.WellFormed v

theorem firstUnreadable_cons_iff {v : String} {f : ReplayFailure} :
    FirstUnreadable (v :: values) f ↔
      (f.position = 0 ∧ Hex.decode v = .error f.reason) ∨
        Hex.WellFormed v ∧ ∃ k, f.position = k + 1 ∧ FirstUnreadable values ⟨k, f.reason⟩ := by
  obtain ⟨position, reason⟩ := f
  cases position with
  | zero =>
    refine ⟨fun h => ?_, ?_⟩
    · obtain ⟨w, first, read⟩ := h.here
      obtain rfl := Option.some.inj first
      exact .inl ⟨rfl, read⟩
    · rintro (⟨-, read⟩ | ⟨-, k, zero, -⟩)
      · exact ⟨⟨v, rfl, read⟩, List.forall_mem_nil _⟩
      · cases zero
  | succ k =>
    refine ⟨fun h => ?_, ?_⟩
    · obtain ⟨first, later⟩ := List.forall_mem_cons.mp h.before
      exact .inr ⟨first, k, rfl, h.here, later⟩
    · rintro (⟨zero, -⟩ | ⟨first, k', same, rest⟩)
      · cases zero
      · obtain rfl : k = k' := Nat.succ.inj same
        exact ⟨rest.here, List.forall_mem_cons.mpr ⟨first, rest.before⟩⟩

/-- A register is not extended because of the first value that cannot be read. -/
theorem extendAll_eq_error_iff {position : Nat} {f : ReplayFailure} :
    b.extendAll current position values = .error f ↔
      ∃ k, f.position = position + k ∧ FirstUnreadable values ⟨k, f.reason⟩ := by
  induction values generalizing current position with
  | nil =>
    refine iff_of_false (by simp [extendAll]) ?_
    rintro ⟨k, -, ⟨v, absent, -⟩, -⟩
    cases absent
  | cons v values ih =>
    simp only [extendAll, firstUnreadable_cons_iff]
    cases read : Hex.decode v with
    | error reason =>
      have bad : ¬Hex.WellFormed v := Hex.exists_decode_error_iff.mp ⟨reason, read⟩
      simp only [bad, false_and, or_false, Except.error.injEq]
      obtain ⟨position', reason'⟩ := f
      simp [throw, throwThe, MonadExceptOf.throw, eq_comm]
    | ok bytes =>
      have good : Hex.WellFormed v := Hex.exists_decode_iff_wellFormed.mp ⟨bytes, read⟩
      simp only [ih, good, true_and, reduceCtorEq, and_false, false_or]
      constructor
      · rintro ⟨k, same, first⟩
        exact ⟨k + 1, by omega, k, rfl, first⟩
      · rintro ⟨_, same, k, rfl, first⟩
        exact ⟨k, by omega, first⟩

theorem replay_eq_error_iff {f : ReplayFailure} :
    b.replay values = .error f ↔ FirstUnreadable values f := by
  simp [replay, extendAll_eq_error_iff]

/-- Nothing but a value that is not hexadecimal stands in the way of a replay. -/
theorem exists_replay_error_iff :
    (∃ f, b.replay values = .error f) ↔ ∃ v ∈ values, ¬Hex.WellFormed v := by
  constructor
  · rintro ⟨f, failed⟩
    obtain ⟨v, here, read⟩ := (replay_eq_error_iff.mp failed).here
    exact ⟨v, List.mem_of_getElem? here, Hex.exists_decode_error_iff.mp ⟨_, read⟩⟩
  · rintro ⟨v, hv, bad⟩
    cases replayed : b.replay values with
    | error f => exact ⟨f, rfl⟩
    | ok hash =>
      obtain ⟨measured, decodes, -⟩ := replay_eq_ok_iff.mp replayed
      obtain ⟨bytes, -, read⟩ := exists_right_of_mem decodes hv
      exact absurd (Hex.exists_decode_iff_wellFormed.mp ⟨bytes, read⟩) bad

/-! ## Outcomes -/

/-- What a replay gives writes the value of a register of the bank. -/
theorem acceptsHex_of_replay (h : b.replay values = .ok hash) : b.acceptsHex hash = true := by
  obtain ⟨measured, -, rfl⟩ := replay_eq_ok_iff.mp h
  exact acceptsHex_iff.mpr
    ⟨_, Hex.decode_encode _, length_foldl_extend b.length_initial measured⟩

theorem isSmallDigit_of_replay (h : b.replay values = .ok hash) :
    ∀ c ∈ hash.toList, Hex.isSmallDigit c = true := by
  obtain ⟨measured, -, rfl⟩ := replay_eq_ok_iff.mp h
  exact fun c => Hex.isSmallDigit_of_mem_encode

theorem replay_nil : b.replay [] = .ok (String.ofList (List.replicate b.hexLength '0')) :=
  congrArg Except.ok (Hex.encode_zeros b.digestSize)

/-! ## Going on -/

/-- A register that is extended by some values is extended by more of them. -/
theorem extendAll_append (position : Nat) :
    b.extendAll current position (xs ++ ys) =
      b.extendAll current position xs >>= fun reached =>
        b.extendAll reached (position + xs.length) ys := by
  induction xs generalizing current position with
  | nil => rfl
  | cons v xs ih =>
    rw [List.cons_append, extendAll, extendAll]
    cases Hex.decode v with
    | error reason => rfl
    | ok bytes =>
      simp only
      rw [ih, List.length_cons, Nat.add_assoc, Nat.add_comm 1]

/-- A replay goes on from what its outcome writes. -/
theorem exists_replay_append (h : b.replay xs = .ok hash) (ys : List String) :
    ∃ start, Hex.decode hash = .ok start ∧
      b.replay (xs ++ ys) = Hex.encode <$> b.extendAll start xs.length ys := by
  obtain ⟨start, reached, written⟩ := bind_eq_ok_iff.mp h
  rw [pure_eq_ok_iff] at written
  refine ⟨start, written ▸ Hex.decode_encode start, ?_⟩
  rw [replay, extendAll_append, reached, Nat.zero_add]
  rfl

/-- **Replaying is extending a register step by step.** It fails exactly if a measurement is not
hexadecimal, with the position of the first such one. What it gives otherwise are small digits
that the bank accepts as a digest; without measurements they are all zero. Replaying more
measurements extends what was reached by each of them in order, by the digest of the value
followed by the measurement, or fails at the first of them that is not hexadecimal. -/
theorem replay_incremental (b : Bank) :
    (∀ values, (∃ f, b.replay values = .error f) ↔ ∃ v ∈ values, ¬Hex.WellFormed v) ∧
    (∀ values f, b.replay values = .error f ↔ FirstUnreadable values f) ∧
    (∀ f, (MeasurementError.unreplayable f).kind = .input ∧
      (MeasurementError.unreplayable f).message =
        "Input error: Failed to decode measurement at position " ++ toString f.position ++ ": " ++
          f.reason.message) ∧
    (∀ values hash, b.replay values = .ok hash →
      b.acceptsHex hash = true ∧ ∀ c ∈ hash.toList, Hex.isSmallDigit c = true) ∧
    b.replay [] = .ok (String.ofList (List.replicate b.hexLength '0')) ∧
    ∀ xs ys hash, b.replay xs = .ok hash → ∃ start, Hex.decode hash = .ok start ∧
      (∀ measured, Decodes ys measured → b.replay (xs ++ ys) = .ok (Hex.encode
        (measured.foldl (fun current bytes => b.digest (current ++ bytes)) start))) ∧
      ∀ f, FirstUnreadable ys f →
        b.replay (xs ++ ys) = .error ⟨xs.length + f.position, f.reason⟩ := by
  refine ⟨fun _ => exists_replay_error_iff, fun _ _ => replay_eq_error_iff,
    fun f => ⟨rfl, MeasurementError.message_unreplayable f⟩,
    fun values hash h => ⟨acceptsHex_of_replay h, isSmallDigit_of_replay h⟩, replay_nil,
    fun xs ys hash h => ?_⟩
  obtain ⟨start, written, going⟩ := exists_replay_append h ys
  refine ⟨start, written, fun measured decodes => ?_, fun f first => ?_⟩
  · have reached : b.extendAll start xs.length ys = .ok (measured.foldl b.extend start) :=
      extendAll_eq_ok_iff.mpr ⟨measured, decodes, rfl⟩
    rw [going, reached]
    rfl
  · have failed : b.extendAll start xs.length ys = .error ⟨xs.length + f.position, f.reason⟩ :=
      extendAll_eq_error_iff.mpr ⟨f.position, rfl, first⟩
    rw [going, failed]
    rfl

end Bank

namespace Sample

open Bank

/-- A register that is extended in two goes, and a third measurement that is refused in its place
in the whole list. -/
theorem replay_goes_on : ∃ once start,
    sha1.replay ["01"] = .ok once ∧ sha1.acceptsHex once = true ∧
      (∀ c ∈ once.toList, Hex.isSmallDigit c = true) ∧ Hex.decode once = .ok start ∧
      sha1.replay (["01"] ++ ["aB"]) = .ok (Hex.encode (sha1.digest (start ++ [0xAB]))) ∧
      sha1.replay (["01"] ++ ["aB", "0"]) = .error ⟨2, .oddLength⟩ := by
  obtain ⟨-, -, -, outcome, -, going⟩ := replay_incremental sha1
  have first : sha1.replay ["01"] = .ok "8209ad2f4fad401d8e3d33def02577bd9ab550e5" := by
    decide +kernel
  obtain ⟨accepted, small⟩ := outcome _ _ first
  obtain ⟨start, written, goes, -⟩ := going _ ["aB"] _ first
  obtain ⟨-, -, -, stops⟩ := going _ ["aB", "0"] _ first
  exact ⟨_, start, first, accepted, small, written, goes [[0xAB]] (.cons rfl .nil),
    stops ⟨1, .oddLength⟩ ⟨⟨"0", rfl, rfl⟩, by decide⟩⟩

end Sample

end HostTrust
