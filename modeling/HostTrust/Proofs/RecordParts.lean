/-
HostTrust.Proofs.RecordParts — which part of a document each value of a structure
is read from.

`Doc.parts` says, without reading anything, what a document gives for one field:
the members under the names of the field, or the item at its place. If no field
answers to a name of another one, the values of a structure that was read come
each from the only part for its field, or stand for an absent one
(`Fields.takenFrom_of_read`). So nothing that a document gives for a field is
passed over.

For objects this is an invariant of the slots (`Fields.Hold`): after some of the
members, each slot holds what those members give for its field. One member keeps
it (`Fields.Hold.put?`), so a row of members does.
-/
import HostTrust.Proofs.Record

namespace HostTrust.Json

open Outcome

/-! ## Parts -/

/-- The documents of the members under these names. -/
def membersNamed (names : List String) (members : List (Option String × Doc)) : List Doc :=
  (members.filter fun m => m.1.any names.contains).map Prod.snd

/-- What a document gives for a field with these names, whose place among the fields is `place`. -/
def Doc.parts (names : List String) (place : Nat) : Doc → List Doc
  | .object members => membersNamed names members
  | .list items => items[place]?.toList
  | _ => []

theorem membersNamed_concat (names : List String) (members : List (Option String × Doc))
    (key : String) (d : Doc) : membersNamed names (members ++ [(some key, d)]) =
      membersNamed names members ++ if names.contains key then [d] else [] := by
  by_cases h : key ∈ names <;> simp [membersNamed, h]

namespace Field

variable {α : Type}

/-- All names under which the field is read. -/
def spellings (field : Field α) : List String := field.name :: field.aliases

theorem answers_eq (field : Field α) (key : String) :
    field.answers key = field.spellings.contains key := by
  rw [answers, spellings, List.contains_cons, Bool.beq_comm]

/-- The value is read from the only part, or there is none and the value stands for that. -/
def TakenFrom (field : Field α) (source : Source) (parts : List Doc) (a : α) : Prop :=
  (∃ part, parts = [part] ∧ field.format.read source part = .ok a) ∨
    (parts = [] ∧ field.absent = some a)

/-- The slot holds what was read from the only part, or there is no part yet. -/
def Holds (field : Field α) (source : Source) (parts : List Doc) : Option α → Prop
  | none => parts = []
  | some a => ∃ part, parts = [part] ∧ field.format.read source part = .ok a

theorem Holds.takenFrom {field : Field α} {source : Source} {parts : List Doc} {slot : Option α}
    {a : α} (h : field.Holds source parts slot) (found : slot.or field.absent = some a) :
    field.TakenFrom source parts a := by
  cases slot with
  | none => exact .inr ⟨h, found⟩
  | some b =>
    obtain rfl : b = a := Option.some.inj found
    exact .inl h

end Field

namespace Fields

variable {ts : List Type} {source : Source}

/-- Whether a member with this key gives one of the fields. -/
def answer : {ts : List Type} → Fields ts → String → Bool
  | _, .nil, _ => false
  | _, .cons field rest, key => field.answers key || rest.answer key

/-- No name belongs to two of the fields. -/
def unambiguous : {ts : List Type} → Fields ts → Bool
  | _, .nil => true
  | _, .cons field rest => field.spellings.all (!rest.answer ·) && unambiguous rest

/-- Each value is taken from what the document gives for its field; the places of the fields
count from `place`. -/
def TakenFrom (source : Source) (d : Doc) :
    Nat → {ts : List Type} → Fields ts → Row ts → Prop
  | _, _, .nil, () => True
  | place, _, .cons field rest, (a, row) =>
    field.TakenFrom source (d.parts field.spellings place) a ∧
      TakenFrom source d (place + 1) rest row

/-- Each slot holds what the members give for its field. -/
def Hold (source : Source) (members : List (Option String × Doc)) :
    {ts : List Type} → Fields ts → Slots ts → Prop
  | _, .nil, () => True
  | _, .cons field rest, (slot, slots) =>
    field.Holds source (membersNamed field.spellings members) slot ∧
      Hold source members rest slots

theorem unanswered_of_answers {α : Type} {field : Field α} {rest : Fields ts} {key : String}
    (apart : (Fields.cons field rest).unambiguous = true) (answers : field.answers key = true) :
    rest.answer key = false := by
  rw [Field.answers_eq, List.contains_iff_mem] at answers
  simpa using List.all_eq_true.mp (Bool.and_eq_true_iff.mp apart).1 key answers

/-! ## Objects -/

variable {members : List (Option String × Doc)} {key : String} {d : Doc}

theorem hold_noSlots (fields : Fields ts) : Hold source [] fields fields.noSlots := by
  induction fields with
  | nil => trivial
  | cons field rest ih => exact ⟨rfl, ih⟩

/-- A member that gives none of the fields is none of their parts. -/
theorem Hold.of_unanswered {fields : Fields ts} {slots : Slots ts}
    (h : Hold source members fields slots) (other : fields.answer key = false) :
    Hold source (members ++ [(some key, d)]) fields slots := by
  induction fields with
  | nil => trivial
  | cons field rest ih =>
    obtain ⟨slot, slots⟩ := slots
    obtain ⟨first, later⟩ := Bool.or_eq_false_iff.mp other
    rw [Field.answers_eq] at first
    refine ⟨?_, ih h.2 later⟩
    rw [membersNamed_concat, first, if_neg Bool.false_ne_true, List.append_nil]
    exact h.1

theorem unanswered_of_put? {fields : Fields ts} {slots : Slots ts}
    (passed : put? source key d fields slots = .ok none) : fields.answer key = false := by
  induction fields with
  | nil => rfl
  | cons field rest ih =>
    cases answers : field.answers key with
    | true =>
      rw [put?_of_answers answers] at passed
      cases held : Slots.head slots with
      | some b => simp [held] at passed
      | none =>
        rw [held] at passed
        obtain ⟨a, -, made⟩ := bind_eq_ok_iff.mp passed
        cases made
    | false =>
      rw [put?_of_other answers] at passed
      obtain ⟨found, later, made⟩ := bind_eq_ok_iff.mp passed
      cases found with
      | some others => cases made
      | none => rw [answer, answers, ih later, Bool.false_or]

/-- A member that is put into a slot is the only part for the field of that slot. -/
theorem Hold.put? {fields : Fields ts} {slots slots' : Slots ts}
    (apart : fields.unambiguous = true) (h : Hold source members fields slots)
    (placed : put? source key d fields slots = .ok (some slots')) :
    Hold source (members ++ [(some key, d)]) fields slots' := by
  induction fields with
  | nil => cases placed
  | cons field rest ih =>
    obtain ⟨slot, slots⟩ := slots
    change Fields.put? source key d (.cons field rest) (.cons slot slots) = _ at placed
    cases answers : field.answers key with
    | true =>
      have later := h.2.of_unanswered (d := d) (unanswered_of_answers apart answers)
      rw [put?_of_answers answers] at placed
      rw [Field.answers_eq] at answers
      cases slot with
      | some => cases placed
      | none =>
        obtain ⟨a, read, made⟩ := bind_eq_ok_iff.mp placed
        cases made
        have none : membersNamed field.spellings members = [] := h.1
        refine ⟨⟨d, ?_, read⟩, later⟩
        rw [membersNamed_concat, answers, none]
        rfl
    | false =>
      rw [put?_of_other answers] at placed
      rw [Field.answers_eq] at answers
      obtain ⟨found, later, made⟩ := bind_eq_ok_iff.mp placed
      cases found with
      | none => cases made
      | some others =>
        cases made
        refine ⟨?_, ih (Bool.and_eq_true_iff.mp apart).2 h.2 later⟩
        rw [membersNamed_concat, answers, if_neg Bool.false_ne_true, List.append_nil]
        exact h.1

/-- After the last member each slot holds what all of them give. -/
theorem Hold.readMembers {fields : Fields ts} {slots slots' : Slots ts}
    {more : List (Option String × Doc)} (apart : fields.unambiguous = true)
    (h : Hold source members fields slots)
    (read : readMembers source fields slots more = .ok slots') :
    Hold source (members ++ more) fields slots' := by
  induction more generalizing members slots with
  | nil =>
    cases read
    simpa using h
  | cons member more ih =>
    obtain ⟨_ | key, d⟩ := member
    · cases read
    · rw [Fields.readMembers] at read
      obtain ⟨found, placed, read⟩ := bind_eq_ok_iff.mp read
      rw [List.append_cons]
      cases found with
      | some next => exact ih (h.put? apart placed) read
      | none =>
        have kept := h.of_unanswered (d := d) (unanswered_of_put? placed)
        cases whole : d.isWhole with
        | true => exact ih kept (by simpa [whole] using read)
        | false => simp [whole] at read

theorem takenFrom_of_complete {fields : Fields ts} {slots : Slots ts} {row : Row ts} {place : Nat}
    (h : Hold source members fields slots) (completed : complete fields slots = .ok row) :
    TakenFrom source (.object members) place fields row := by
  induction fields generalizing place with
  | nil => trivial
  | cons field rest ih =>
    obtain ⟨slot, slots⟩ := slots
    rw [complete] at completed
    split at completed
    case h_1 a found =>
      obtain ⟨others, later, made⟩ := bind_eq_ok_iff.mp completed
      cases made
      exact ⟨h.1.takenFrom found, ih h.2 later⟩
    case h_2 => cases completed

/-! ## Lists -/

/-- The fields from some place on are taken from the items from that place on. -/
theorem takenFrom_of_readInOrder {fields : Fields ts} {items more : List Doc} {row : Row ts}
    {taken place : Nat}
    (read : readInOrder source taken fields (items.drop place) = .ok (row, more)) :
    TakenFrom source (.list items) place fields row := by
  induction fields generalizing taken place with
  | nil => trivial
  | cons field rest ih =>
    have next : items.drop (place + 1) = (items.drop place).tail := by
      rw [List.tail_drop]
    have first : items[place]? = (items.drop place).head? := by
      rw [List.head?_drop]
    cases left : items.drop place with
    | nil =>
      rw [left] at read next first
      rw [readInOrder] at read
      split at read
      case h_1 => cases read
      case h_2 a absent =>
        obtain ⟨⟨others, left⟩, later, made⟩ := bind_eq_ok_iff.mp read
        cases made
        exact ⟨.inr ⟨by simp [Doc.parts, first], absent⟩, ih (by rw [next]; exact later)⟩
    | cons d items' =>
      rw [left] at read next first
      obtain ⟨a, here, read⟩ := bind_eq_ok_iff.mp read
      obtain ⟨⟨others, left⟩, later, made⟩ := bind_eq_ok_iff.mp read
      cases made
      exact ⟨.inl ⟨d, by simp [Doc.parts, first], here⟩, ih (by rw [next]; exact later)⟩

/-! ## Structures -/

/-- The values of a structure come each from the only part that the document gives for it. -/
theorem takenFrom_of_read {fields : Fields ts} {row : Row ts}
    (apart : fields.unambiguous = true) (h : fields.read source d = .ok row) :
    TakenFrom source d 0 fields row := by
  cases d with
  | object members =>
    obtain ⟨slots, read, completed⟩ := bind_eq_ok_iff.mp h
    exact takenFrom_of_complete ((hold_noSlots fields).readMembers apart read) completed
  | list items =>
    have inOrder : readInOrder source 0 fields (items.drop 0) = .ok (row, []) :=
      readInOrder_of_read h
    exact takenFrom_of_readInOrder inOrder
  | null | bool | number | text | unreadable | broken => cases h

end Fields

end HostTrust.Json
