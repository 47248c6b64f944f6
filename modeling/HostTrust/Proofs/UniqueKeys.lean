/-
HostTrust.Proofs.UniqueKeys — values of which no object has two members with one
key.

Only such values come out of documents, because a later member of a key takes
the place of an earlier one (`uniqueKeys_of_toJson?`), and such values come out
as they went in (`toJson?_ofJson`). So a value that was read once is read again
as it is, with its members in their order. Each fact is three, about a value,
the items of a list and the members of an object, by recursion on the document
or the value.
-/
import HostTrust.Json.Document
import Mathlib.Data.List.Nodup

namespace HostTrust.Json

mutual

/-- In no object do two members have one key. -/
def UniqueKeys : Json → Prop
  | .list items => ItemsUnique items
  | .object members => (members.map Prod.fst).Nodup ∧ MembersUnique members
  | .null | .bool _ | .number _ | .text _ => True

def ItemsUnique : List Json → Prop
  | [] => True
  | v :: rest => UniqueKeys v ∧ ItemsUnique rest

/-- This is about the values of the members, not about their own keys. -/
def MembersUnique : List (String × Json) → Prop
  | [] => True
  | (_, v) :: rest => UniqueKeys v ∧ MembersUnique rest

end

/-! ## Setting a member -/

theorem keys_put (key : String) (value : Json) (members : List (String × Json)) :
    (put key value members).map Prod.fst =
      if key ∈ members.map Prod.fst then members.map Prod.fst
      else members.map Prod.fst ++ [key] := by
  induction members with
  | nil => rfl
  | cons m rest ih =>
    obtain ⟨k, v⟩ := m
    rw [put]
    split
    case isTrue same => simp [same]
    case isFalse other =>
      rw [List.map_cons, List.map_cons, ih]
      by_cases mem : key ∈ rest.map Prod.fst
      · rw [if_pos mem, if_pos (.tail _ mem)]
      · have absent : key ∉ k :: rest.map Prod.fst := by simp [mem, Ne.symm other]
        rw [if_neg mem, if_neg absent]
        rfl

theorem nodup_keys_put {members : List (String × Json)} (key : String) (value : Json)
    (h : (members.map Prod.fst).Nodup) : ((put key value members).map Prod.fst).Nodup := by
  rw [keys_put]
  split
  case isTrue => exact h
  case isFalse absent =>
    refine List.nodup_append.mpr ⟨h, List.nodup_singleton _, fun k mem other last => ?_⟩
    rintro rfl
    exact absent (List.mem_singleton.mp last ▸ mem)

theorem membersUnique_put {members : List (String × Json)} (key : String) {value : Json}
    (unique : UniqueKeys value) (h : MembersUnique members) :
    MembersUnique (put key value members) := by
  induction members with
  | nil => exact ⟨unique, trivial⟩
  | cons m rest ih =>
    obtain ⟨k, v⟩ := m
    rw [put]
    split
    · exact ⟨unique, h.2⟩
    · exact ⟨h.1, ih h.2⟩

/-! ## Reading documents -/

namespace Doc

mutual

/-- What comes out of a document has unique keys. -/
theorem uniqueKeys_of_toJson? : ∀ (d : Doc) (v : Json), d.toJson? = some v → UniqueKeys v
  | .null, v, h | .bool _, v, h | .number _, v, h | .text _, v, h => by
    rw [toJson?] at h
    obtain rfl := Option.some.inj h
    exact trivial
  | .list items, v, h => by
    rw [toJson?] at h
    obtain ⟨vs, read, rfl⟩ := Option.map_eq_some_iff.mp h
    exact itemsUnique_of_toItems? items vs read
  | .object members, v, h => by
    rw [toJson?] at h
    obtain ⟨ms, read, rfl⟩ := Option.map_eq_some_iff.mp h
    exact membersUnique_of_toMembers? members [] ms .nil trivial read
  | .unreadable, v, h | .broken, v, h => by
    rw [toJson?] at h
    cases h

theorem itemsUnique_of_toItems? : ∀ (items : List Doc) (vs : List Json),
    toItems? items = some vs → ItemsUnique vs
  | [], vs, h => by
    rw [toItems?] at h
    obtain rfl := Option.some.inj h
    exact trivial
  | d :: rest, vs, h => by
    rw [toItems?] at h
    obtain ⟨v, here, h⟩ := Option.bind_eq_some_iff.mp h
    obtain ⟨others, later, h⟩ := Option.bind_eq_some_iff.mp h
    obtain rfl := Option.some.inj h
    exact ⟨uniqueKeys_of_toJson? d v here, itemsUnique_of_toItems? rest others later⟩

/-- Members are added one after the other, and each step keeps the keys unique. -/
theorem membersUnique_of_toMembers? : ∀ (members : List (Option String × Doc))
    (before ms : List (String × Json)), (before.map Prod.fst).Nodup → MembersUnique before →
    toMembers? before members = some ms → (ms.map Prod.fst).Nodup ∧ MembersUnique ms
  | [], before, ms, nodup, unique, h => by
    rw [toMembers?] at h
    obtain rfl := Option.some.inj h
    exact ⟨nodup, unique⟩
  | (none, _) :: _, before, ms, nodup, unique, h => by
    rw [toMembers?] at h
    cases h
  | (some k, d) :: rest, before, ms, nodup, unique, h => by
    rw [toMembers?] at h
    obtain ⟨v, here, h⟩ := Option.bind_eq_some_iff.mp h
    have value := uniqueKeys_of_toJson? d v here
    exact membersUnique_of_toMembers? rest _ ms (nodup_keys_put k v nodup)
      (membersUnique_put k value unique) h

end

mutual

/-- A value with unique keys comes out of its document as it is. -/
theorem toJson?_ofJson : ∀ v : Json, UniqueKeys v → (ofJson v).toJson? = some v
  | .null, _ | .bool _, _ | .number _, _ | .text _, _ => by rw [ofJson, toJson?]
  | .list items, h => by
    rw [ofJson, toJson?, toItems?_ofItems items h]
    rfl
  | .object members, h => by
    rw [ofJson, toJson?, toMembers?_ofMembers members [] h.2 h.1]
    rfl

theorem toItems?_ofItems : ∀ items : List Json, ItemsUnique items →
    toItems? (ofItems items) = some items
  | [], _ => rfl
  | v :: rest, h => by
    rw [ofItems, toItems?, toJson?_ofJson v h.1, toItems?_ofItems rest h.2]
    rfl

theorem toMembers?_ofMembers : ∀ (members before : List (String × Json)), MembersUnique members →
    ((before ++ members).map Prod.fst).Nodup →
    toMembers? before (ofMembers members) = some (before ++ members)
  | [], before, _, _ => by rw [ofMembers, toMembers?, List.append_nil]
  | (k, v) :: rest, before, unique, nodup => by
    have absent : k ∉ before.map Prod.fst := by
      intro mem
      rw [List.map_append, List.map_cons, List.nodup_append] at nodup
      exact nodup.2.2 k mem k (.head _) rfl
    have moved : before ++ (k, v) :: rest = before ++ [(k, v)] ++ rest := by simp
    rw [moved] at nodup
    rw [ofMembers, toMembers?, toJson?_ofJson v unique.1, Option.bind_eq_bind, Option.bind_some,
      put_of_absent absent, toMembers?_ofMembers rest _ unique.2 nodup, moved]

end

theorem ofJson_eq_null_iff {v : Json} : ofJson v = .null ↔ v = .null := by
  cases v <;> simp [ofJson]

/-- Only `null` is read as `null`. -/
theorem ne_null_of_toJson? {d : Doc} {v : Json} (h : d.toJson? = some v) (solid : d ≠ .null) :
    v ≠ .null := by
  rintro rfl
  cases d with
  | null => exact solid rfl
  | bool | number | text => simp [toJson?] at h
  | list | object => simp [toJson?] at h
  | unreadable | broken => simp [toJson?] at h

end Doc

end HostTrust.Json
