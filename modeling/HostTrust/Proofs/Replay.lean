/-
HostTrust.Proofs.Replay — replaying measurements is extending a fresh register
by what they write.

`Bank.extendAll` reads the measurements one by one while it extends the register.
`Bank.ChainsTo` says apart from that what the outcome is: all measurements are
hexadecimal, and the hash chain over their bytes, in order, leads to the value.
`Bank.replay_eq_ok_iff` ties the two together. The value is always one of the
bank: it has the width of a digest, so it is never empty.
-/
import HostTrust.Proofs.Outcome

namespace HostTrust

open Outcome

namespace Hex

theorem length_encode (bs : Bytes) : (encode bs).toList.length = 2 * bs.length := by
  rw [encode, String.toList_ofList]
  induction bs with
  | nil => rfl
  | cons b bs ih =>
    rw [List.flatMap_cons, List.length_append, ih, List.length_cons]
    have pair : (byteChars b).length = 2 := rfl
    omega

end Hex

namespace Bank

variable {b : Bank} {current final : Bytes} {values : List String} {hash : String}

/-- The values write, in hexadecimal digits, these bytes. -/
def Decodes (values : List String) (measured : List Bytes) : Prop :=
  List.Forall₂ (fun v bytes => Hex.decode v = .ok bytes) values measured

/-- The hash chain of the values, from a fresh register on and in order, leads to the hash. -/
def ChainsTo (b : Bank) (values : List String) (hash : String) : Prop :=
  ∃ measured, Decodes values measured ∧ Hex.encode (measured.foldl b.extend b.initial) = hash

/-- A register is extended by all values exactly if each of them can be read. -/
theorem extendAll_eq_ok_iff {position : Nat} : b.extendAll current position values = .ok final ↔
    ∃ measured, Decodes values measured ∧ measured.foldl b.extend current = final := by
  induction values generalizing current position with
  | nil => simp [extendAll, Decodes]
  | cons v values ih =>
    rw [extendAll]
    cases read : Hex.decode v with
    | error reason =>
      refine iff_of_false (by simp) ?_
      rintro ⟨_, _ | ⟨here, -⟩, -⟩
      simp [read] at here
    | ok bytes =>
      simp only
      rw [ih]
      constructor
      · rintro ⟨measured, decodes, rfl⟩
        exact ⟨bytes :: measured, .cons read decodes, rfl⟩
      · rintro ⟨_, _ | ⟨here, decodes⟩, rfl⟩
        rw [read, Except.ok.injEq] at here
        rw [← here]
        exact ⟨_, decodes, rfl⟩

/-- A replay gives the end of the hash chain. -/
theorem replay_eq_ok_iff : b.replay values = .ok hash ↔ b.ChainsTo values hash := by
  simp only [replay, bind_eq_ok_iff, pure_eq_ok_iff, extendAll_eq_ok_iff, ChainsTo]
  constructor
  · rintro ⟨_, ⟨measured, decodes, rfl⟩, rfl⟩
    exact ⟨measured, decodes, rfl⟩
  · rintro ⟨measured, decodes, rfl⟩
    exact ⟨_, ⟨measured, decodes, rfl⟩, rfl⟩

/-- A register keeps the width of its bank. -/
theorem length_foldl_extend (width : current.length = b.digestSize) (measured : List Bytes) :
    (measured.foldl b.extend current).length = b.digestSize := by
  induction measured generalizing current with
  | nil => exact width
  | cons bytes measured ih => exact ih (b.length_extend current bytes)

/-- What a hash chain leads to has the digits of a digest. -/
theorem ChainsTo.length_eq (h : b.ChainsTo values hash) : hash.toList.length = b.hexLength := by
  obtain ⟨measured, -, rfl⟩ := h
  rw [Hex.length_encode, length_foldl_extend b.length_initial, hexLength, Nat.mul_comm]

theorem ChainsTo.ne_nil (h : b.ChainsTo values hash) : hash.toList ≠ [] := by
  have width := h.length_eq
  intro empty
  rw [empty] at width
  cases b <;> cases width

end Bank

end HostTrust
