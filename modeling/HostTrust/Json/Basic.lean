/-
HostTrust.Json.Basic — JSON values.

The members of an object keep the order in which they were given, because
signatures cover the written form. A number keeps the kind of its spelling:
`1` is an integer, `1.0` is not.
-/
import HostTrust.Number.Text

namespace HostTrust

/-- A JSON value; the members of an object are in order. -/
inductive Json where
  | null
  | bool (b : Bool)
  | number (n : Number.Numeral)
  | text (s : String)
  | list (items : List Json)
  | object (members : List (String × Json))

namespace Json

/-- An integer. -/
def int (n : Int) : Json := .number (.int n)

/-- A natural number. -/
def nat (n : Nat) : Json := .number (.int n)

/-- A value that may be absent, written as `null` when it is. -/
def ofOption {α : Type} (write : α → Json) : Option α → Json
  | some a => write a
  | none => .null

/-- Sets a member: in its old place if the object has it, at the end if not. -/
def put (key : String) (value : Json) : List (String × Json) → List (String × Json)
  | [] => [(key, value)]
  | (k, v) :: rest => if k = key then (key, value) :: rest else (k, v) :: put key value rest

/-- The member of an object with a given key. -/
def get? (key : String) : Json → Option Json
  | .object members => members.lookup key
  | _ => none

theorem put_of_absent {key : String} {value : Json} {members : List (String × Json)}
    (h : key ∉ members.map Prod.fst) : put key value members = members ++ [(key, value)] := by
  induction members with
  | nil => rfl
  | cons m rest ih =>
    obtain ⟨k, v⟩ := m
    simp only [List.map_cons, List.mem_cons, not_or] at h
    simp [put, Ne.symm h.1, ih h.2]

end Json

end HostTrust
