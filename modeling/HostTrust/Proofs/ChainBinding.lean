/-
HostTrust.Proofs.ChainBinding — a replayed value binds the measurements that led
to it.

Nothing is assumed about digests. Collisions exist for every one of them, so it
would say nothing that there are any; what counts is which ones. `Bank.Hashes`
says what a replay hashes on its way: the value of the register after some of the
measurements, followed by the next one. Two replays with one outcome have read
the same bytes, or what the one and the other hash collides, or one of them
hashes something to the value of a fresh register, which is how a longer log
could stand for a shorter one (`Bank.decodes_alike_or_collides`).

The last step is looked at first: a register is as wide as its bank, so equal
inputs of the last digest are split at the same place, whatever lengths the
measurements have (`Bank.extend_eq_extend`).
-/
import HostTrust.Proofs.Replay
import Mathlib.Data.List.Induction

namespace HostTrust

open Outcome

namespace Hex

/-- Different bytes are written differently. -/
theorem encode_injective {bs cs : Bytes} (h : encode bs = encode cs) : bs = cs := by
  have read : decode (encode bs) = .ok cs := by rw [h, decode_encode]
  rw [decode_encode] at read
  exact Except.ok.inj read

end Hex

namespace Bank

variable {b : Bank} {xs ys values : List String} {v : String} {current final : Bytes}

/-! ## What a replay hashes -/

/-- Replaying the values hashes this input: what the register holds after some of them, and
then the bytes of the next one. -/
def Hashes (b : Bank) (values : List String) (input : Bytes) : Prop :=
  ∃ before v after current bytes, values = before ++ v :: after ∧
    b.extendAll b.initial 0 before = .ok current ∧ Hex.decode v = .ok bytes ∧
    input = current ++ bytes

/-- The two replays hash different inputs to one digest. -/
def Collide (b : Bank) (xs ys : List String) : Prop :=
  ∃ s t, b.Hashes xs s ∧ b.Hashes ys t ∧ s ≠ t ∧ b.digest s = b.digest t

/-- The replay hashes an input to the value of a fresh register. -/
def Resets (b : Bank) (values : List String) : Prop :=
  ∃ s, b.Hashes values s ∧ b.digest s = b.initial

/-- What is hashed stays hashed when more values follow. -/
theorem Hashes.append {input : Bytes} (h : b.Hashes values input) (more : List String) :
    b.Hashes (values ++ more) input := by
  obtain ⟨before, v, after, current, bytes, rfl, rest⟩ := h
  exact ⟨before, v, after ++ more, current, bytes, by simp, rest⟩

theorem Collide.append (h : b.Collide xs ys) (more others : List String) :
    b.Collide (xs ++ more) (ys ++ others) := by
  obtain ⟨s, t, hs, ht, collision⟩ := h
  exact ⟨s, t, hs.append more, ht.append others, collision⟩

theorem Resets.append (h : b.Resets values) (more : List String) :
    b.Resets (values ++ more) := by
  obtain ⟨s, hs, reset⟩ := h
  exact ⟨s, hs.append more, reset⟩

/-! ## The last step of a replay -/

/-- The last value extends what the values before it lead to. -/
theorem extendAll_concat_eq_ok_iff {position : Nat} :
    b.extendAll current position (values ++ [v]) = .ok final ↔
      ∃ before bytes, b.extendAll current position values = .ok before ∧
        Hex.decode v = .ok bytes ∧ b.extend before bytes = final := by
  induction values generalizing current position with
  | nil =>
    rw [List.nil_append, extendAll]
    cases read : Hex.decode v <;> simp [extendAll, read]
  | cons w values ih =>
    rw [List.cons_append, extendAll, extendAll]
    cases Hex.decode w with
    | error reason => simp
    | ok bytes => exact ih

theorem hashes_concat {bytes : Bytes} (before : b.extendAll b.initial 0 values = .ok current)
    (read : Hex.decode v = .ok bytes) : b.Hashes (values ++ [v]) (current ++ bytes) :=
  ⟨values, v, [], current, bytes, rfl, before, read, rfl⟩

theorem length_of_extendAll (h : b.extendAll b.initial 0 values = .ok final) :
    final.length = b.digestSize := by
  obtain ⟨measured, -, rfl⟩ := extendAll_eq_ok_iff.mp h
  exact length_foldl_extend b.length_initial measured

/-- One step binds both of its inputs, unless they collide with other ones. -/
theorem extend_eq_extend {current' m m' : Bytes} (width : current.length = current'.length)
    (same : b.extend current m = b.extend current' m') :
    (current = current' ∧ m = m') ∨
      (current ++ m ≠ current' ++ m' ∧ b.digest (current ++ m) = b.digest (current' ++ m')) := by
  by_cases inputs : current ++ m = current' ++ m'
  · exact .inl (List.append_inj inputs width)
  · exact .inr ⟨inputs, same⟩

/-! ## Binding -/

theorem Decodes.concat {measured : List Bytes} {bytes : Bytes} (h : Decodes values measured)
    (read : Hex.decode v = .ok bytes) : Decodes (values ++ [v]) (measured ++ [bytes]) :=
  List.rel_append h (.cons read .nil)

/-- Registers that are extended alike have been extended by the same, unless digests collide. -/
theorem decodes_alike_of_extendAll (one : b.extendAll b.initial 0 xs = .ok final)
    (other : b.extendAll b.initial 0 ys = .ok final) :
    (∃ measured, Decodes xs measured ∧ Decodes ys measured) ∨
      b.Collide xs ys ∨ b.Resets xs ∨ b.Resets ys := by
  -- From the end: both lists lose their last value at once, until one of them is used up.
  induction xs using List.reverseRecOn generalizing ys final with
  | nil =>
    obtain rfl : b.initial = final := Except.ok.inj one
    rcases List.eq_nil_or_concat ys with rfl | ⟨ys, w, rfl⟩
    · exact .inl ⟨[], .nil, .nil⟩
    · rw [List.concat_eq_append] at other ⊢
      obtain ⟨before, bytes, reached, read, reset⟩ := extendAll_concat_eq_ok_iff.mp other
      exact .inr (.inr (.inr ⟨_, hashes_concat reached read, reset⟩))
  | append_singleton xs v ih =>
    obtain ⟨before, bytes, reached, read, made⟩ := extendAll_concat_eq_ok_iff.mp one
    rcases List.eq_nil_or_concat ys with rfl | ⟨ys, w, rfl⟩
    · obtain rfl : b.initial = final := Except.ok.inj other
      exact .inr (.inr (.inl ⟨_, hashes_concat reached read, made⟩))
    · rw [List.concat_eq_append] at other ⊢
      obtain ⟨before', bytes', reached', read', made'⟩ := extendAll_concat_eq_ok_iff.mp other
      have width : before.length = before'.length := by
        rw [length_of_extendAll reached, length_of_extendAll reached']
      rcases extend_eq_extend width (made.trans made'.symm) with ⟨rfl, rfl⟩ | collision
      · rcases ih reached reached' with ⟨measured, hxs, hys⟩ | collide | reset | reset
        · exact .inl ⟨_, hxs.concat read, hys.concat read'⟩
        · exact .inr (.inl (collide.append _ _))
        · exact .inr (.inr (.inl (reset.append _)))
        · exact .inr (.inr (.inr (reset.append _)))
      · exact .inr (.inl
          ⟨_, _, hashes_concat reached read, hashes_concat reached' read', collision⟩)

/-- **A replayed value binds the log.** Two lists of measurements that replay to one value write
the same bytes in the same order, or the replays themselves exhibit a collision of the bank's
digest, or one of them exhibits an input whose digest is the value of a fresh register. -/
theorem decodes_alike_or_collides {hash : String} (one : b.replay xs = .ok hash)
    (other : b.replay ys = .ok hash) :
    (∃ measured, Decodes xs measured ∧ Decodes ys measured) ∨
      b.Collide xs ys ∨ b.Resets xs ∨ b.Resets ys := by
  obtain ⟨final, reached, written⟩ := bind_eq_ok_iff.mp one
  obtain ⟨final', reached', written'⟩ := bind_eq_ok_iff.mp other
  rw [pure_eq_ok_iff] at written written'
  obtain rfl : final = final' := Hex.encode_injective (written.trans written'.symm)
  exact decodes_alike_of_extendAll reached reached'

end Bank

namespace Sample

open Bank

/-- Two logs that write the same bytes in different letters. -/
def inSmall : List String := ["0a", "bc", ""]

def inCapitals : List String := ["0A", "BC", ""]

theorem bound_in_either_case : ∃ hash,
    sha1.replay inSmall = .ok hash ∧ sha1.replay inCapitals = .ok hash ∧
      ((∃ measured, Decodes inSmall measured ∧ Decodes inCapitals measured) ∨
        sha1.Collide inSmall inCapitals ∨ sha1.Resets inSmall ∨ sha1.Resets inCapitals) := by
  have one : sha1.replay inSmall = .ok "5faea783115dcf46083b232312a45434680b5d73" := by
    decide +kernel
  have other : sha1.replay inCapitals = .ok "5faea783115dcf46083b232312a45434680b5d73" := by
    decide +kernel
  exact ⟨_, one, other, decodes_alike_or_collides one other⟩

end Sample

end HostTrust
