/-
HostTrust.Proofs.Record — where the first field of a structure is read from.

The members of an object are read in order into slots, one for each field. A
member goes into the slot of its field and leaves the others as they are, and a
slot that is filled takes nothing more. So the value of the first field comes
from the only member under one of its names (`first_of_read_object`). In a list
it comes from the first item (`first_of_read_list`).
-/
import HostTrust.Json.Record
import HostTrust.Proofs.Outcome

namespace HostTrust

open Outcome

namespace Json

/-- The value of the first field, once it is read. -/
def Slots.head {α : Type} {ts : List Type} (s : Slots (α :: ts)) : Option α := s.1

/-- The slots with one for a further field in front. -/
def Slots.cons {α : Type} {ts : List Type} (slot : Option α) (slots : Slots ts) :
    Slots (α :: ts) := (slot, slots)

namespace Fields

variable {α : Type} {ts : List Type} {field : Field α} {rest : Fields ts} {source : Source}
  {s filled : Slots (α :: ts)} {key : String} {d : Doc} {members : List (Option String × Doc)}

theorem put?_of_other (other : field.answers key = false) :
    put? source key d (.cons field rest) s = (do
      return (← put? source key d rest s.2).map (.cons s.head)) := by
  obtain ⟨slot, slots⟩ := s
  exact if_neg (by simp [other])

theorem put?_of_answers (answers : field.answers key = true) :
    put? source key d (.cons field rest) s =
      match s.head with
      | some _ => throw (.duplicateField field.name)
      | none => do
        let a ← field.format.read source d
        return some (some a, s.2) := by
  obtain ⟨slot, slots⟩ := s
  refine (if_pos (by simp [answers])).trans ?_
  cases slot <;> rfl

/-- A member under another key leaves the first slot as it is. -/
theorem readMembers_of_other (other : field.answers key = false)
    (h : readMembers source (.cons field rest) s ((some key, d) :: members) = .ok filled) :
    ∃ s', s'.head = s.head ∧ readMembers source (.cons field rest) s' members = .ok filled := by
  rw [readMembers, put?_of_other other] at h
  obtain ⟨found, placed, h⟩ := bind_eq_ok_iff.mp h
  obtain ⟨others, -, placed⟩ := bind_eq_ok_iff.mp placed
  cases others with
  | some slots =>
    cases placed
    exact ⟨.cons s.head slots, rfl, h⟩
  | none =>
    cases placed
    rw [Option.map_none] at h
    cases whole : d.isWhole with
    | true => exact ⟨s, rfl, by simpa [whole] using h⟩
    | false => simp [whole] at h

/-- A member under a key of the first field is read into its slot, which must be free. -/
theorem readMembers_of_answers (answers : field.answers key = true)
    (h : readMembers source (.cons field rest) s ((some key, d) :: members) = .ok filled) :
    s.head = none ∧ ∃ a s', field.format.read source d = .ok a ∧ s'.head = some a ∧
      readMembers source (.cons field rest) s' members = .ok filled := by
  rw [readMembers, put?_of_answers answers] at h
  obtain ⟨found, placed, h⟩ := bind_eq_ok_iff.mp h
  cases free : s.head with
  | some _ => simp [free] at placed
  | none =>
    rw [free] at placed
    obtain ⟨a, read, placed⟩ := bind_eq_ok_iff.mp placed
    cases placed
    exact ⟨rfl, a, _, read, rfl, h⟩

/-- A filled slot keeps its value, and no further member gives the field. -/
theorem head_of_filled {a : α} (full : s.head = some a)
    (h : readMembers source (.cons field rest) s members = .ok filled) :
    filled.head = some a ∧ ∀ key d, (some key, d) ∈ members → field.answers key = false := by
  induction members generalizing s with
  | nil =>
    cases h
    exact ⟨full, by simp⟩
  | cons member members ih =>
    obtain ⟨_ | key, d⟩ := member
    · cases h
    · cases answers : field.answers key with
      | true =>
        obtain ⟨free, -⟩ := readMembers_of_answers answers h
        simp [full] at free
      | false =>
        obtain ⟨s', same, h⟩ := readMembers_of_other answers h
        obtain ⟨kept, others⟩ := ih (same.trans full) h
        refine ⟨kept, fun key' d' given => ?_⟩
        rcases List.mem_cons.mp given with first | later
        · cases first
          exact answers
        · exact others key' d' later

/-- A free slot is filled from the only member that gives the field. -/
theorem read_of_head {a : α} (free : s.head = none)
    (h : readMembers source (.cons field rest) s members = .ok filled)
    (full : filled.head = some a) :
    (∃ key d, (some key, d) ∈ members ∧ field.answers key = true) ∧
      ∀ key d, (some key, d) ∈ members → field.answers key = true →
        field.format.read source d = .ok a := by
  induction members generalizing s with
  | nil =>
    cases h
    simp [free] at full
  | cons member members ih =>
    obtain ⟨_ | key, d⟩ := member
    · cases h
    · cases answers : field.answers key with
      | true =>
        obtain ⟨-, b, s', read, filled', h⟩ := readMembers_of_answers answers h
        obtain ⟨kept, others⟩ := head_of_filled filled' h
        obtain rfl : a = b := by simpa [full] using kept
        refine ⟨⟨key, d, .head _, answers⟩, fun key' d' given again => ?_⟩
        rcases List.mem_cons.mp given with first | later
        · cases first
          exact read
        · simp [others key' d' later] at again
      | false =>
        obtain ⟨s', same, h⟩ := readMembers_of_other answers h
        obtain ⟨⟨key', d', given, giving⟩, others⟩ := ih (same.trans free) h
        refine ⟨⟨key', d', .tail _ given, giving⟩, fun key' d' given again => ?_⟩
        rcases List.mem_cons.mp given with first | later
        · cases first
          simp [answers] at again
        · exact others key' d' later again

/-- A field that must be given is read from the only member under one of its names. -/
theorem first_of_read_object {row : Row (α :: ts)} (required : field.absent = none)
    (h : (Fields.cons field rest).read source (.object members) = .ok row) :
    (∃ key d, (some key, d) ∈ members ∧ field.answers key = true) ∧
      ∀ key d, (some key, d) ∈ members → field.answers key = true →
        field.format.read source d = .ok row.1 := by
  obtain ⟨filled, members, completed⟩ := bind_eq_ok_iff.mp h
  refine read_of_head rfl members ?_
  obtain ⟨slot, slots⟩ := filled
  rw [complete, required, Option.or_none] at completed
  cases slot with
  | none => cases completed
  | some a =>
    obtain ⟨values, -, made⟩ := bind_eq_ok_iff.mp completed
    cases made
    rfl

/-- A list is read as a structure only if its fields use up the items. -/
theorem readInOrder_of_read {fields : Fields ts} {items : List Doc} {row : Row ts}
    (h : fields.read source (.list items) = .ok row) :
    readInOrder source 0 fields items = .ok (row, []) := by
  obtain ⟨⟨row', more⟩, inOrder, h⟩ := bind_eq_ok_iff.mp h
  dsimp only at h
  split at h
  · next none =>
    cases h
    rw [inOrder, List.isEmpty_iff.mp none]
  · cases source <;> cases h

/-- A field that must be given is read from the first item. -/
theorem first_of_read_list {items : List Doc} {row : Row (α :: ts)}
    (required : field.absent = none)
    (h : (Fields.cons field rest).read source (.list items) = .ok row) :
    ∃ d, items.head? = some d ∧ field.format.read source d = .ok row.1 := by
  have inOrder := readInOrder_of_read h
  cases items with
  | nil => simp [readInOrder, required] at inOrder
  | cons d items =>
    obtain ⟨a, read, later⟩ := bind_eq_ok_iff.mp inOrder
    obtain ⟨⟨values, more⟩, -, made⟩ := bind_eq_ok_iff.mp later
    cases made
    exact ⟨d, rfl, read⟩

end Fields

end Json

end HostTrust
