/-
HostTrust.Proofs.RecordRoundTrip — what a structure is read as after it was
written.

A field keeps a value if the member that is written is read as that value, or,
where none is written, an absent member stands for it (`Field.Keeps`). If no
field is taken for another, a row of kept values is read back
(`Fields.read_write`): each member that is written goes into its own slot, by
induction on the fields, and completing the slots adds what was left out. So a
format restores a structure whose fields it keeps (`Format.restores_record`).

In the other direction, each value of a structure that was read has been read
from a document, or is what an absent member stands for (`Fields.gives_of_read`).
-/
import HostTrust.Proofs.Record
import HostTrust.Proofs.UniqueKeys

namespace HostTrust.Json

open Outcome

/-! ## Formats -/

namespace Format

variable {α : Type} {f : Format α}

theorem restores_named {ofName : String → Option α} {name : α → String} {a : α}
    (h : ofName (name a) = some a) : (named ofName name).Restores a := by
  simp only [Restores, named, Doc.ofJson, h]
  rfl

theorem restores_none : f.optional.Restores none := rfl

/-- A value is taken for a missing one only if it is written like that. -/
theorem restores_some {a : α} (restores : f.Restores a) (solid : f.write a ≠ .null) :
    f.optional.Restores (some a) := by
  have written : Doc.ofJson (f.write a) ≠ .null := fun null =>
    solid (Doc.ofJson_eq_null_iff.mp null)
  simp only [Restores] at restores
  simp only [Restores, optional, ofOption]
  rw [restores]
  rfl

theorem restores_any {v : Json} (unique : UniqueKeys v) : any.Restores v := by
  simp only [Restores, any, id, Doc.toJson?_ofJson v unique]
  rfl

/-- A value that may be any, if it has been read, is no `null` and has unique keys. -/
theorem unique_of_optional_any {source : Source} {d : Doc} {v : Json}
    (h : any.optional.read source d = .ok (some v)) : v ≠ .null ∧ UniqueKeys v := by
  simp only [optional] at h
  split at h
  case h_1 => cases h
  case h_2 solid =>
    obtain ⟨w, read, same⟩ := map_eq_ok_iff.mp h
    obtain rfl := Option.some.inj same
    simp only [any] at read
    split at read
    case h_1 _ found =>
      obtain rfl := pure_eq_ok_iff.mp read
      exact ⟨Doc.ne_null_of_toJson? found solid, Doc.uniqueKeys_of_toJson? _ _ found⟩
    case h_2 => exact absurd read throw_ne_ok

end Format

/-! ## Kept values -/

/-- The value is written and read back, or it is left out and an absent member stands for it. -/
structure Field.Keeps {α : Type} (field : Field α) (a : α) : Prop where
  absent : field.omitted a = true → field.absent = some a
  restores : field.omitted a = false → field.format.Restores a

namespace Field

variable {α : Type} {name : String} {format : Format α}

/-- A value that is not left out has to be restored. -/
theorem Keeps.of_restores {field : Field α} {a : α} (given : field.omitted a = false)
    (h : field.format.Restores a) : field.Keeps a where
  absent omitted := by simp [given] at omitted
  restores _ := h

theorem Keeps.required {a : α} (h : format.Restores a) : (Field.required name format).Keeps a :=
  .of_restores rfl h

theorem Keeps.withDefault {a value : α} (h : format.Restores a) :
    (Field.withDefault name format value).Keeps a := .of_restores rfl h

theorem Keeps.optional {o : Option α} (h : ∀ a ∈ o, format.Restores a ∧ format.write a ≠ .null) :
    (Field.optional name format).Keeps o := by
  cases o with
  | none => exact ⟨fun _ => rfl, fun _ => Format.restores_none⟩
  | some a =>
    obtain ⟨restores, solid⟩ := h a rfl
    exact .of_restores rfl (Format.restores_some restores solid)

theorem Keeps.textOrEmpty (s : String) : (Field.textOrEmpty name).Keeps s := by
  refine ⟨fun empty => ?_, fun _ => Format.restores_text s⟩
  rw [String.isEmpty_iff.mp empty]
  rfl

theorem Keeps.listOrEmpty {as : List α} (h : ∀ a ∈ as, format.Restores a) :
    (Field.listOrEmpty name format).Keeps as := Keeps.withDefault (Format.restores_list h)

theorem Keeps.listIfAny {as : List α} (h : ∀ a ∈ as, format.Restores a) :
    (Field.listIfAny name format).Keeps as := by
  refine ⟨fun empty => ?_, fun _ => Format.restores_list h⟩
  rw [List.isEmpty_iff.mp empty]
  rfl

theorem answers_name (field : Field α) : field.answers field.name = true := by
  simp [answers]

end Field

namespace Fields

variable {ts : List Type}

/-- Each field keeps its value. -/
def Keeps : {ts : List Type} → Fields ts → Row ts → Prop
  | _, .nil, () => True
  | _, .cons field rest, (a, row) => field.Keeps a ∧ Keeps rest row

/-- The names under which the fields are written. -/
def names : {ts : List Type} → Fields ts → List String
  | _, .nil => []
  | _, .cons field rest => field.name :: names rest

/-- No field is read from what is written for a later one. -/
def distinct : {ts : List Type} → Fields ts → Bool
  | _, .nil => true
  | _, .cons field rest => rest.names.all (!field.answers ·) && distinct rest

/-- The slots that are filled from what is written. -/
def written : {ts : List Type} → Fields ts → Row ts → Slots ts
  | _, .nil, () => ()
  | _, .cons field rest, (a, row) => (if field.omitted a then none else some a, written rest row)

theorem complete_written {fields : Fields ts} {row : Row ts} (keeps : fields.Keeps row) :
    complete fields (fields.written row) = .ok row := by
  induction fields with
  | nil => rfl
  | cons field rest ih =>
    obtain ⟨a, row⟩ := row
    have found : (if field.omitted a then none else some a).or field.absent = some a := by
      split
      case isTrue omitted => exact keeps.1.absent omitted
      case isFalse => rfl
    simp only [written, complete, found, ih keeps.2]
    rfl

theorem mem_names_of_mem_write {fields : Fields ts} {row : Row ts} {key : String} {d : Doc}
    (h : (some key, d) ∈ Doc.ofMembers (fields.write row)) : key ∈ fields.names := by
  induction fields with
  | nil => cases h
  | cons field rest ih =>
    obtain ⟨a, row⟩ := row
    rw [write] at h
    split at h
    · exact .tail _ (ih h)
    · rcases List.mem_cons.mp h with here | later
      · obtain rfl := Option.some.inj (Prod.mk.inj here).1
        exact .head _
      · exact .tail _ (ih later)

section Reading

variable {α : Type} {field : Field α} {rest : Fields ts} {source : Source}

/-- Members that do not give the first field are read as if it were not there. -/
theorem readMembers_of_others {members : List (Option String × Doc)}
    (others : ∀ key d, (some key, d) ∈ members → field.answers key = false) (slot : Option α)
    (slots : Slots ts) : readMembers source (.cons field rest) (.cons slot slots) members =
      Slots.cons slot <$> readMembers source rest slots members := by
  induction members generalizing slots with
  | nil => rfl
  | cons member members ih =>
    have later := fun slots => ih (fun key d h => others key d (.tail _ h)) slots
    obtain ⟨_ | key, d⟩ := member
    · rfl
    · have placed : put? source key d (.cons field rest) (.cons slot slots) = (do
          return (← put? source key d rest slots).map (.cons slot)) :=
        put?_of_other (others key d (.head _))
      rw [readMembers, readMembers, placed]
      cases put? source key d rest slots with
      | error e => rfl
      | ok found =>
        cases found with
        | some slots' => exact later slots'
        | none =>
          show (if d.isWhole then _ else _) = Slots.cons slot <$> (if d.isWhole then _ else _)
          cases d.isWhole with
          | true => exact later slots
          | false => rfl

/-- What a field has written goes into its own slot. -/
theorem put?_write {a : α} (restores : field.format.Restores a) (slots : Slots ts) :
    put? .value field.name (Doc.ofJson (field.format.write a)) (.cons field rest)
      (.cons none slots) = .ok (some (.cons (some a) slots)) := by
  have read : field.format.read .value (Doc.ofJson (field.format.write a)) = .ok a := restores
  rw [put?_of_answers field.answers_name]
  simp only [Slots.cons, Slots.head, read]
  rfl

/-- What is written fills the slots of the fields that are written. -/
theorem readMembers_write {fields : Fields ts} {row : Row ts} (distinct : fields.distinct = true)
    (keeps : fields.Keeps row) : readMembers .value fields fields.noSlots
      (Doc.ofMembers (fields.write row)) = .ok (fields.written row) := by
  induction fields with
  | nil => rfl
  | cons field rest ih =>
    obtain ⟨a, row⟩ := row
    obtain ⟨apart, restDistinct⟩ := Bool.and_eq_true_iff.mp distinct
    have others : ∀ key d, (some key, d) ∈ Doc.ofMembers (rest.write row) →
        field.answers key = false := fun key d h => by
      simpa using List.all_eq_true.mp apart key (mem_names_of_mem_write h)
    have passed : ∀ slot, readMembers .value (.cons field rest) (.cons slot rest.noSlots)
        (Doc.ofMembers (rest.write row)) = .ok (.cons slot (rest.written row)) := by
      intro slot
      rw [readMembers_of_others others, ih restDistinct keeps.2]
      rfl
    rw [write, written]
    cases omitted : field.omitted a with
    | true => exact passed none
    | false =>
      have members : Doc.ofMembers ([(field.name, field.format.write a)] ++ rest.write row) =
          (some field.name, Doc.ofJson (field.format.write a)) ::
            Doc.ofMembers (rest.write row) := rfl
      rw [if_neg Bool.false_ne_true, if_neg Bool.false_ne_true, members, readMembers]
      have slots : (Fields.cons field rest).noSlots = Slots.cons none rest.noSlots := rfl
      rw [slots, put?_write (keeps.1.restores omitted)]
      exact passed (some a)

end Reading

/-- A row of kept values is read back. -/
theorem read_write {fields : Fields ts} {row : Row ts} (distinct : fields.distinct = true)
    (keeps : fields.Keeps row) :
    fields.read .value (Doc.ofJson (.object (fields.write row))) = .ok row := by
  have slots := readMembers_write distinct keeps
  have completed := complete_written keeps
  rw [Doc.ofJson, read]
  simp only [slots, bind, Except.bind]
  exact completed

end Fields

/-- A structure is restored if its fields keep its parts. -/
theorem Format.restores_record {ts : List Type} {α : Type} {fields : Fields ts}
    {build : Row ts → α} {parts : α → Row ts} {a : α} (distinct : fields.distinct = true)
    (keeps : fields.Keeps (parts a)) (rebuilt : build (parts a) = a) :
    (fields.record build parts).Restores a := by
  have read := Fields.read_write distinct keeps
  simp only [Restores, Fields.record]
  rw [read]
  exact congrArg Except.ok rebuilt

/-! ## Values that were read -/

/-- The value was read, or it is what an absent member stands for. -/
def Field.Gives {α : Type} (field : Field α) (a : α) : Prop :=
  field.absent = some a ∨ ∃ source d, field.format.read source d = .ok a

namespace Fields

variable {ts : List Type} {source : Source}

/-- Each value was read or stands for an absent member. -/
def Gives : {ts : List Type} → Fields ts → Row ts → Prop
  | _, .nil, () => True
  | _, .cons field rest, (a, row) => field.Gives a ∧ Gives rest row

/-- What the slots hold was read. -/
def Filled : {ts : List Type} → Fields ts → Slots ts → Prop
  | _, .nil, () => True
  | _, .cons field rest, (slot, slots) =>
    (∀ a ∈ slot, ∃ source d, field.format.read source d = .ok a) ∧ Filled rest slots

theorem filled_noSlots (fields : Fields ts) : fields.Filled fields.noSlots := by
  induction fields with
  | nil => trivial
  | cons field rest ih => exact ⟨fun a held => absurd held (Option.not_mem_none a), ih⟩

/-- One member puts a value that was read into a slot. -/
theorem Filled.put? {fields : Fields ts} {slots slots' : Slots ts} {key : String} {d : Doc}
    (h : fields.Filled slots) (placed : put? source key d fields slots = .ok (some slots')) :
    fields.Filled slots' := by
  induction fields with
  | nil => cases placed
  | cons field rest ih =>
    obtain ⟨slot, slots⟩ := slots
    change Fields.put? source key d (.cons field rest) (.cons slot slots) = _ at placed
    cases answers : field.answers key with
    | true =>
      rw [put?_of_answers answers] at placed
      cases slot with
      | some => cases placed
      | none =>
        obtain ⟨a, read, made⟩ := bind_eq_ok_iff.mp placed
        cases made
        exact ⟨fun b same => ⟨source, d, by cases same; exact read⟩, h.2⟩
    | false =>
      rw [put?_of_other answers] at placed
      obtain ⟨found, later, made⟩ := bind_eq_ok_iff.mp placed
      cases found with
      | none => cases made
      | some others =>
        cases made
        exact ⟨h.1, ih h.2 later⟩

theorem Filled.readMembers {fields : Fields ts} {slots slots' : Slots ts}
    {members : List (Option String × Doc)} (h : fields.Filled slots)
    (read : readMembers source fields slots members = .ok slots') : fields.Filled slots' := by
  induction members generalizing slots with
  | nil =>
    cases read
    exact h
  | cons member members ih =>
    obtain ⟨_ | key, d⟩ := member
    · cases read
    · rw [Fields.readMembers] at read
      obtain ⟨found, placed, read⟩ := bind_eq_ok_iff.mp read
      cases found with
      | some next => exact ih (h.put? placed) read
      | none =>
        cases whole : d.isWhole with
        | true => exact ih h (by simpa [whole] using read)
        | false => simp [whole] at read

theorem gives_of_complete {fields : Fields ts} {slots : Slots ts} {row : Row ts}
    (h : fields.Filled slots) (completed : complete fields slots = .ok row) : fields.Gives row := by
  induction fields with
  | nil => trivial
  | cons field rest ih =>
    obtain ⟨slot, slots⟩ := slots
    rw [complete] at completed
    split at completed
    case h_1 a found =>
      obtain ⟨others, later, made⟩ := bind_eq_ok_iff.mp completed
      cases made
      refine ⟨?_, ih h.2 later⟩
      cases slot with
      | none => exact .inl found
      | some b => exact .inr (h.1 a found)
    case h_2 => cases completed

theorem gives_of_readInOrder {fields : Fields ts} {taken : Nat} {items more : List Doc}
    {row : Row ts} (read : readInOrder source taken fields items = .ok (row, more)) :
    fields.Gives row := by
  induction fields generalizing taken items with
  | nil => trivial
  | cons field rest ih =>
    cases items with
    | nil =>
      rw [readInOrder] at read
      split at read
      case h_1 => cases read
      case h_2 a absent =>
        obtain ⟨⟨others, left⟩, later, made⟩ := bind_eq_ok_iff.mp read
        cases made
        exact ⟨.inl absent, ih later⟩
    | cons d items =>
      obtain ⟨a, here, read⟩ := bind_eq_ok_iff.mp read
      obtain ⟨⟨others, left⟩, later, made⟩ := bind_eq_ok_iff.mp read
      cases made
      exact ⟨.inr ⟨source, d, here⟩, ih later⟩

/-- Whatever a structure is read from, its values were read or stand for absent members. -/
theorem gives_of_read {fields : Fields ts} {d : Doc} {row : Row ts}
    (h : fields.read source d = .ok row) : fields.Gives row := by
  cases d with
  | object members =>
    obtain ⟨slots, read, completed⟩ := bind_eq_ok_iff.mp h
    exact gives_of_complete ((filled_noSlots fields).readMembers read) completed
  | list items => exact gives_of_readInOrder (readInOrder_of_read h)
  | null | bool | number | text | unreadable | broken => cases h

end Fields

end HostTrust.Json
