/-
HostTrust.Sorted.Names — finite sets of names and finite maps from names.

Both are kept as strictly ascending lists, so each set and each map has one
form, and equality of forms is equality of contents. Names are compared
character by character.
-/

namespace HostTrust.Sorted

theorem lt_of_ne_of_not_lt {a b : String} (ne : a ≠ b) (h : ¬ a < b) : b < a := by
  rcases Decidable.em (b < a) with hba | hba
  · exact hba
  · exact absurd (String.le_antisymm (String.not_lt.1 hba) (String.not_lt.1 h)) ne

/-! ## Maps -/

/-- Sets the value of a key in an ascending list of entries. -/
def insertEntry {α : Type} (key : String) (value : α) :
    List (String × α) → List (String × α)
  | [] => [(key, value)]
  | e :: rest =>
    if key = e.1 then (key, value) :: rest
    else if key < e.1 then (key, value) :: e :: rest
    else e :: insertEntry key value rest

theorem mem_insertEntry {α : Type} {key : String} {value : α} {entries : List (String × α)}
    {e : String × α} (h : e ∈ insertEntry key value entries) :
    e = (key, value) ∨ e ∈ entries := by
  induction entries with
  | nil => simpa [insertEntry] using h
  | cons d rest ih =>
    simp only [insertEntry] at h
    split at h
    · rcases List.mem_cons.1 h with h | h
      · exact .inl h
      · exact .inr (List.mem_cons_of_mem _ h)
    · split at h
      · rcases List.mem_cons.1 h with h | h
        · exact .inl h
        · exact .inr h
      · rcases List.mem_cons.1 h with h | h
        · exact .inr (h ▸ List.mem_cons_self)
        · rcases ih h with h | h
          · exact .inl h
          · exact .inr (List.mem_cons_of_mem _ h)

theorem insertEntry_ascending {α : Type} (key : String) (value : α)
    {entries : List (String × α)} (h : entries.Pairwise fun d e => d.1 < e.1) :
    (insertEntry key value entries).Pairwise fun d e => d.1 < e.1 := by
  induction entries with
  | nil => simp [insertEntry]
  | cons d rest ih =>
    have hd := List.pairwise_cons.1 h
    simp only [insertEntry]
    split
    · next eq =>
      refine List.pairwise_cons.2 ⟨fun e he => ?_, hd.2⟩
      simpa [eq] using hd.1 e he
    · split
      · next lt =>
        refine List.pairwise_cons.2 ⟨fun e he => ?_, h⟩
        rcases List.mem_cons.1 he with he | he
        · exact he ▸ lt
        · exact String.lt_trans lt (hd.1 e he)
      · next ne lt =>
        refine List.pairwise_cons.2 ⟨fun e he => ?_, ih hd.2⟩
        rcases mem_insertEntry he with he | he
        · exact he ▸ lt_of_ne_of_not_lt ne lt
        · exact hd.1 e he

theorem lookup_cons {κ α : Type} [BEq κ] [LawfulBEq κ] [DecidableEq κ] (e : κ × α)
    (rest : List (κ × α)) (key : κ) :
    (e :: rest).lookup key = if key = e.1 then some e.2 else rest.lookup key := by
  rw [List.lookup_cons]
  by_cases same : key = e.1
  · simp [same]
  · simp [same, beq_eq_false_iff_ne.2 same]

/-- Among values entered under their keys, what is found under a key is the first value with it. -/
theorem lookup_map_key {κ α : Type} [BEq κ] [LawfulBEq κ] [DecidableEq κ] (keyOf : α → κ)
    (values : List α) (key : κ) :
    (values.map fun x => (keyOf x, x)).lookup key = values.find? (keyOf · == key) := by
  induction values with
  | nil => rfl
  | cons x rest ih =>
    rw [List.map_cons, lookup_cons, List.find?_cons, ih]
    by_cases here : key = keyOf x
    · simp [here]
    · simp [here, beq_eq_false_iff_ne.2 (Ne.symm here)]

/-- Entries are entered into a map in order: where entering one changes what is found under its
key only, of several entries of a key the last one counts. -/
theorem get?_foldl_insert {κ α M : Type} [BEq κ] [LawfulBEq κ] [DecidableEq κ]
    {insert : M → κ → α → M} {get? : M → κ → Option α}
    (inserted : ∀ m key value other,
      get? (insert m key value) other = if other = key then some value else get? m other)
    (entries : List (κ × α)) (m : M) (key : κ) :
    get? (entries.foldl (fun m e => insert m e.1 e.2) m) key =
      (entries.reverse.lookup key).or (get? m key) := by
  induction entries generalizing m with
  | nil => simp
  | cons e rest ih =>
    rw [List.foldl_cons, ih, inserted, List.reverse_cons, List.lookup_append, lookup_cons]
    by_cases same : key = e.1 <;> simp [same]

/-- Setting the value of a key changes what is found under that key only. -/
theorem lookup_insertEntry {α : Type} (key : String) (value : α) (entries : List (String × α))
    (other : String) : (insertEntry key value entries).lookup other =
      if other = key then some value else entries.lookup other := by
  induction entries with
  | nil => rw [insertEntry, lookup_cons]
  | cons e rest ih =>
    rw [insertEntry]
    split
    · next first =>
      rw [lookup_cons, lookup_cons, ← first]
      by_cases same : other = key <;> simp [same]
    · next first =>
      split
      · rw [lookup_cons]
      · rw [lookup_cons, lookup_cons, ih]
        by_cases same : other = key
        · simp [same, first]
        · simp [same]

/-- A key above all others is entered at the end. -/
theorem insertEntry_of_above {α : Type} {key : String} (value : α) {entries : List (String × α)}
    (above : ∀ e ∈ entries, e.1 < key) :
    insertEntry key value entries = entries ++ [(key, value)] := by
  induction entries with
  | nil => rfl
  | cons e rest ih =>
    have less : e.1 < key := above e List.mem_cons_self
    have other : key ≠ e.1 := fun same => String.lt_irrefl _ (same ▸ less)
    have not_less : ¬ key < e.1 := fun more => String.lt_irrefl _ (String.lt_trans less more)
    rw [insertEntry, if_neg other, if_neg not_less,
      ih fun d hd => above d (List.mem_cons_of_mem e hd)]
    rfl

end Sorted

/-- A finite map from names. -/
structure NameMap (α : Type) where
  entries : List (String × α)
  ascending : entries.Pairwise fun d e => d.1 < e.1

namespace NameMap

def empty {α : Type} : NameMap α := ⟨[], .nil⟩

/-- Sets the value of a name. -/
def insert {α : Type} (m : NameMap α) (key : String) (value : α) : NameMap α :=
  ⟨Sorted.insertEntry key value m.entries, Sorted.insertEntry_ascending key value m.ascending⟩

/-- The map of a list of entries, of which the last one of a name counts. -/
def ofList {α : Type} (entries : List (String × α)) : NameMap α :=
  entries.foldl (fun m e => m.insert e.1 e.2) empty

def get? {α : Type} (m : NameMap α) (key : String) : Option α := m.entries.lookup key

def contains {α : Type} (m : NameMap α) (key : String) : Bool := (m.get? key).isSome

theorem get?_insert {α : Type} (m : NameMap α) (key : String) (value : α) (other : String) :
    (m.insert key value).get? other = if other = key then some value else m.get? other :=
  Sorted.lookup_insertEntry key value m.entries other

/-- Of several entries of a name the last one counts. -/
theorem get?_ofList {α : Type} (entries : List (String × α)) (key : String) :
    (ofList entries).get? key = entries.reverse.lookup key := by
  rw [ofList, Sorted.get?_foldl_insert get?_insert]
  exact Option.or_none

/-- Each name has one entry, so a value is found exactly if it is entered. -/
theorem get?_eq_some_iff {α : Type} {m : NameMap α} {key : String} {value : α} :
    m.get? key = some value ↔ (key, value) ∈ m.entries := by
  rw [get?, List.lookup_eq_some_iff]
  constructor
  · rintro ⟨before, after, split, -⟩
    simp [split]
  · intro entered
    obtain ⟨before, after, split⟩ := List.append_of_mem entered
    refine ⟨before, after, split, fun e he => ?_⟩
    have ascending := m.ascending
    rw [split, List.pairwise_append] at ascending
    have less : e.1 < key := ascending.2.2 e he (key, value) List.mem_cons_self
    simpa using fun same : key = e.1 => String.lt_irrefl _ (same ▸ less)

/-- The entries of a map make the same map. -/
theorem ofList_entries {α : Type} (m : NameMap α) : ofList m.entries = m := by
  have after : ∀ (more : List (String × α)) (n : NameMap α),
      (n.entries ++ more).Pairwise (fun d e => d.1 < e.1) →
      (more.foldl (fun m e => m.insert e.1 e.2) n).entries = n.entries ++ more := by
    intro more
    induction more with
    | nil => simp
    | cons e rest ih =>
      intro n ascending
      have moved : n.entries ++ e :: rest = n.entries ++ [e] ++ rest := by simp
      have above : ∀ d ∈ n.entries, d.1 < e.1 := fun d hd =>
        (List.pairwise_append.mp ascending).2.2 d hd e List.mem_cons_self
      have entered : (n.insert e.1 e.2).entries = n.entries ++ [e] :=
        Sorted.insertEntry_of_above e.2 above
      rw [List.foldl_cons, ih _ (by rwa [entered, ← moved]), entered, moved]
  have same := after m.entries empty m.ascending
  obtain ⟨entries, ascending⟩ := m
  simp only [ofList]
  cases made : entries.foldl (fun m e => m.insert e.1 e.2) empty
  rw [made] at same
  simpa [empty] using same

end NameMap

/-- A finite set of names. -/
structure NameSet where
  toList : List String
  ascending : toList.Pairwise (· < ·)
  deriving DecidableEq, Repr

namespace NameSet

def empty : NameSet := ⟨[], .nil⟩

def isEmpty (s : NameSet) : Bool := s.toList.isEmpty

/-- The set of the names in a list. -/
def ofList (names : List String) : NameSet :=
  let m := NameMap.ofList (names.map fun n => (n, ()))
  ⟨m.entries.map Prod.fst, List.pairwise_map.2 m.ascending⟩

def contains (s : NameSet) (name : String) : Bool := s.toList.contains name

/-- Whether the sets have a name in common. -/
def meets (s t : NameSet) : Bool := s.toList.any t.contains

/-- The names of a set make the same set. -/
theorem ofList_toList (s : NameSet) : ofList s.toList = s := by
  obtain ⟨names, ascending⟩ := s
  have entries : NameMap.ofList (names.map fun n => (n, ())) =
      ⟨names.map fun n => (n, ()), List.pairwise_map.mpr ascending⟩ :=
    NameMap.ofList_entries ⟨_, _⟩
  simp only [ofList, entries]
  simp [Function.comp_def]

/-- The set of the names in a list has these names and no others. -/
theorem mem_ofList_iff {names : List String} {name : String} :
    name ∈ (ofList names).toList ↔ name ∈ names := by
  have entered : ∀ rest : List String,
      (rest.map fun n => (n, ())).lookup name = some () ↔ name ∈ rest := by
    intro rest
    induction rest with
    | nil => simp
    | cons n rest ih =>
      rw [List.map_cons, Sorted.lookup_cons, List.mem_cons, ← ih]
      by_cases here : name = n <;> simp [here]
  have kept : name ∈ (ofList names).toList ↔
      (NameMap.ofList (names.map fun n => (n, ()))).get? name = some () := by
    rw [NameMap.get?_eq_some_iff]
    constructor
    · intro h
      obtain ⟨⟨n, _⟩, entry, rfl⟩ := List.mem_map.mp h
      exact entry
    · exact fun entry => List.mem_map_of_mem entry
  rw [kept, NameMap.get?_ofList, ← List.map_reverse, entered, List.mem_reverse]

end NameSet

end HostTrust
