/-
HostTrust.Json.Record — formats of structures.

A structure is described by its fields, in order: name, other names under which
it is read, format, what an absent member stands for, and which values are not
written. It is written as an object. It is read from an object, whose members
may come in any order and may hold others, which are passed over; or from a
list of its fields in order, at whose end fields may be absent if an absent
member stands for something.

Members are read in the order of the document and the first fault is reported;
a field given twice is one, under any of its names. Only after the last member
are missing fields looked for, in the order of the fields.
-/
import HostTrust.Json.Format

namespace HostTrust.Json

/-- A field of a structure. -/
structure Field (α : Type) where
  name : String
  /-- Other names under which the field is read. -/
  aliases : List String
  format : Format α
  /-- What an absent member stands for; `none` if the field may not be absent. -/
  absent : Option α
  /-- Whether a value is not written. -/
  omitted : α → Bool

namespace Field

/-- A field that must be given. -/
def required {α : Type} (name : String) (format : Format α) : Field α :=
  ⟨name, [], format, none, fun _ => false⟩

/-- A field that stands for `value` when it is absent, and is always written. -/
def withDefault {α : Type} (name : String) (format : Format α) (value : α) : Field α :=
  ⟨name, [], format, some value, fun _ => false⟩

/-- A field that is written only if it has a value. -/
def optional {α : Type} (name : String) (format : Format α) : Field (Option α) :=
  ⟨name, [], format.optional, some none, Option.isNone⟩

/-- A text that is written only if it is not empty. -/
def textOrEmpty (name : String) : Field String :=
  ⟨name, [], .text, some "", String.isEmpty⟩

/-- A list that may be absent and is always written. -/
def listOrEmpty {α : Type} (name : String) (format : Format α) : Field (List α) :=
  withDefault name format.list []

/-- A list that is written only if it has items. -/
def listIfAny {α : Type} (name : String) (format : Format α) : Field (List α) :=
  ⟨name, [], format.list, some [], List.isEmpty⟩

/-- The field under a further name. -/
def also {α : Type} (field : Field α) (name : String) : Field α :=
  { field with aliases := name :: field.aliases }

/-- Whether a member with this key gives the field. -/
def answers {α : Type} (field : Field α) (key : String) : Bool :=
  field.name == key || field.aliases.contains key

end Field

/-- The fields of a structure, by their types. -/
inductive Fields : List Type → Type 1 where
  | nil : Fields []
  | cons {α : Type} {ts : List Type} (field : Field α) (rest : Fields ts) : Fields (α :: ts)

/-- A value for each field. -/
def Row : List Type → Type
  | [] => Unit
  | α :: ts => α × Row ts

/-- A value for each field that has been read. -/
def Slots : List Type → Type
  | [] => Unit
  | α :: ts => Option α × Slots ts

namespace Fields

/-- Before any member is read. -/
def noSlots : {ts : List Type} → Fields ts → Slots ts
  | _, .nil => ()
  | _, .cons _ rest => (none, noSlots rest)

/-- Reads a member into its slot; nothing if the key is not that of a field. -/
def put? (source : Source) (key : String) (d : Doc) :
    {ts : List Type} → Fields ts → Slots ts → Except Misfit (Option (Slots ts))
  | _, .nil, () => return none
  | _, .cons field rest, (slot, slots) =>
    if field.answers key then
      match slot with
      | some _ => throw (.duplicateField field.name)
      | none => do
        let a ← field.format.read source d
        return some (some a, slots)
    else do
      let slots ← put? source key d rest slots
      return slots.map fun slots => (slot, slots)

/-- Reads members in order. -/
def readMembers (source : Source) {ts : List Type} (fields : Fields ts) :
    Slots ts → List (Option String × Doc) → Except Misfit (Slots ts)
  | slots, [] => return slots
  | _, (none, _) :: _ => throw .malformed
  | slots, (some key, d) :: rest => do
    match ← put? source key d fields slots with
    | some slots => readMembers source fields slots rest
    | none => if d.isWhole then readMembers source fields slots rest else throw .malformed

/-- Gives the absent fields what they stand for. -/
def complete : {ts : List Type} → Fields ts → Slots ts → Except Misfit (Row ts)
  | _, .nil, () => return ()
  | _, .cons field rest, (slot, slots) => do
    match slot.or field.absent with
    | some a => return (a, ← complete rest slots)
    | none => throw (.missingField field.name)

/-- Reads the items of a list as the fields in order; `taken` items were read before. -/
def readInOrder (source : Source) (taken : Nat) :
    {ts : List Type} → Fields ts → List Doc → Except Misfit (Row ts × List Doc)
  | _, .nil, items => return ((), items)
  | _, .cons field rest, d :: items => do
    let a ← field.format.read source d
    let (row, items) ← readInOrder source (taken + 1) rest items
    return ((a, row), items)
  | _, .cons field rest, [] => do
    match field.absent with
    | none => throw (.invalidLength taken)
    | some a =>
      let (row, items) ← readInOrder source (taken + 1) rest []
      return ((a, row), items)

/-- Reads a value for each field. -/
def read {ts : List Type} (fields : Fields ts) (source : Source) : Doc → Except Misfit (Row ts)
  | .object members => do
    let slots ← readMembers source fields fields.noSlots members
    complete fields slots
  | .list items => do
    let (row, more) ← readInOrder source 0 fields items
    if more.isEmpty then return row
    else match source with
      | .value => throw (.invalidLength items.length)
      | .text => throw .malformed
  | d => throw d.misfit

/-- The members that are written. -/
def write : {ts : List Type} → Fields ts → Row ts → List (String × Json)
  | _, .nil, () => []
  | _, .cons field rest, (a, row) =>
    (if field.omitted a then [] else [(field.name, field.format.write a)]) ++ write rest row

end Fields

/-- The format of a structure with the given fields. -/
def Fields.record {ts : List Type} {α : Type} (fields : Fields ts) (build : Row ts → α)
    (parts : α → Row ts) : Format α where
  read source d := build <$> fields.read source d
  write a := .object (fields.write (parts a))

end HostTrust.Json
