/-
HostTrust.Json.Format — formats: how the values of a type are written as JSON
and read from a document.

A format pairs a reader with a writer. `Restores` says of a value that the
reader gives it back from what the writer wrote. The readers of this module
are for plain types, options, lists, sets of texts and names;
`HostTrust.Json.Record` has those of structures.
-/
import HostTrust.Json.Misfit
import HostTrust.Json.Reader

namespace HostTrust.Json

/-- How the values of a type are read and written. -/
structure Format (α : Type) where
  read : Source → Doc → Except Misfit α
  write : α → Json

namespace Format

/-- The reader gives back a value that the writer wrote. -/
def Restores {α : Type} (f : Format α) (a : α) : Prop :=
  f.read .value (Doc.ofJson (f.write a)) = .ok a

/-- Reads the value that a text writes, which blanks may surround. -/
def readBytes {α : Type} (f : Format α) (bs : Bytes) : Except Misfit α := do
  let (d, rest) := Doc.ofLetters (Text.decode bs)
  let a ← f.read .text d
  if isEnd rest then return a else throw .malformed

/-- Reads a value that is already in memory. -/
def readJson {α : Type} (f : Format α) (v : Json) : Except Misfit α :=
  f.read .value (Doc.ofJson v)

/-! ## Plain values -/

def text : Format String where
  read _
    | .text s => return s
    | d => throw d.misfit
  write := .text

def bool : Format Bool where
  read _
    | .bool b => return b
    | d => throw d.misfit
  write := .bool

/-- A natural number of at most so many bits. -/
def natural (bits : Nat) : Format Nat where
  read _
    | .number (.int n) =>
      if 0 ≤ n ∧ n.toNat < Nat.pow 2 bits then return n.toNat
      else throw (.invalidValue (.int n))
    | d => throw d.misfit
  write := .nat

/-- Any value. -/
def any : Format Json where
  read _ d :=
    match d.toJson? with
    | some v => return v
    | none => throw .malformed
  write := id

/-! ## Derived formats -/

/-- Values of one type in the form of another, some of which stand for no value. -/
def via {α β : Type} (f : Format β) (make : β → Except Misfit α) (parts : α → β) : Format α where
  read source d := do make (← f.read source d)
  write a := f.write (parts a)

/-- A value or `null`. -/
def optional {α : Type} (f : Format α) : Format (Option α) where
  read source
    | .null => return none
    | d => some <$> f.read source d
  write := ofOption f.write

/-- Reads the items of a list in order. -/
def readItems {α : Type} (f : Format α) (source : Source) : List Doc → Except Misfit (List α)
  | [] => return []
  | d :: rest => do
    let a ← f.read source d
    return a :: (← readItems f source rest)

def list {α : Type} (f : Format α) : Format (List α) where
  read source
    | .list items => readItems f source items
    | d => throw d.misfit
  write as := .list (as.map f.write)

/-! ## Names -/

/-- One of a closed set of values, written as its name. A name may also be given as the
key of an object whose only member is `null`. -/
def named {α : Type} (ofName : String → Option α) (name : α → String) : Format α where
  read source
    | .text s =>
      match ofName s with
      | some a => return a
      | none => throw (.unknownVariant s)
    | .object [(some key, d)] =>
      match ofName key with
      | none => throw (.unknownVariant key)
      | some a =>
        match d with
        | .null => return a
        | d => throw d.misfit
    | .object ((some key, d) :: _) =>
      match source with
      | .value => throw (.invalidValue .object)
      | .text =>
        match ofName key with
        | none => throw (.unknownVariant key)
        | some _ =>
          match d with
          | .null => throw .malformed
          | d => throw d.misfit
    | .object _ =>
      match source with
      | .value => throw (.invalidValue .object)
      | .text => throw .malformed
    | d =>
      match source with
      | .value => throw d.misfit
      | .text => throw .malformed
  write a := .text (name a)

/-! ## Maps -/

/-- Reads the members of an object in order, each key by `key`. -/
def readEntries {κ α : Type} (key : String → Except Misfit κ) (f : Format α) (source : Source) :
    List (Option String × Doc) → Except Misfit (List (κ × α))
  | [] => return []
  | (none, _) :: _ => throw .malformed
  | (some k, d) :: rest => do
    let k ← key k
    let a ← f.read source d
    return (k, a) :: (← readEntries key f source rest)

/-! ## Laws -/

theorem restores_text (s : String) : text.Restores s := rfl

theorem restores_bool (b : Bool) : bool.Restores b := rfl

theorem restores_natural {bits n : Nat} (h : n < Nat.pow 2 bits) :
    (natural bits).Restores n := by
  have range : 0 ≤ (n : Int) ∧ (n : Int).toNat < Nat.pow 2 bits := ⟨by omega, h⟩
  simp only [Restores, natural, nat, Doc.ofJson]
  rw [if_pos range]
  rfl

theorem restores_via {α β : Type} {f : Format β} {make : β → Except Misfit α} {parts : α → β}
    {a : α} (restores : f.Restores (parts a)) (rebuilt : make (parts a) = .ok a) :
    (via f make parts).Restores a := by
  simp only [Restores] at restores ⊢
  simp only [via, restores]
  exact rebuilt

theorem restores_list {α : Type} {f : Format α} {as : List α} (h : ∀ a ∈ as, f.Restores a) :
    (list f).Restores as := by
  simp only [Restores, list, Doc.ofJson]
  induction as with
  | nil => rfl
  | cons a rest ih =>
    have first : f.read .value (Doc.ofJson (f.write a)) = .ok a := h a (by simp)
    have others := ih fun b hb => h b (by simp [hb])
    simp only [List.map_cons, Doc.ofItems, readItems, first, others]
    rfl

end Format

end HostTrust.Json
