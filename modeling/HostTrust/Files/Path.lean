/-
HostTrust.Files.Path — paths, and the names that they are made of.

A path is a text. Its names stand between slashes; a path that begins with a
slash is absolute, and its first name is empty. Names that are empty or a
single dot say nothing about the place, but a path that ends in them asks for a
directory.
-/

namespace HostTrust.Path

/-- The names of a path, written out. -/
abbrev Names := List String

/-- What stands between slashes. -/
def splitNames : List Char → List (List Char)
  | [] => [[]]
  | c :: rest =>
    if c = '/' then [] :: splitNames rest
    else match splitNames rest with
      | name :: names => (c :: name) :: names
      | [] => [[c]]

/-- The names of a path; the empty path has none. -/
def names (path : String) : Names :=
  if path.isEmpty then [] else (splitNames path.toList).map String.ofList

/-- The path with the given names. -/
def ofNames : Names → String
  | [""] => "/"
  | names => "/".intercalate names

/-- A path as seen from a directory: an absolute path stays as it is. -/
def join (directory path : String) : String :=
  if path.toList.head? = some '/' || directory.isEmpty then path
  else if directory.toList.getLast? = some '/' then directory ++ path
  else directory ++ "/" ++ path

/-- Drops names that say nothing from the end; the names come in reverse. A path keeps its first
name. -/
def dropIdle : Names → Names
  | [] => []
  | [first] => [first]
  | name :: rest => if name = "" ∨ name = "." then dropIdle rest else name :: rest

/-- The path above; nothing if there is none above. -/
def parent? (names : Names) : Option Names :=
  match dropIdle names.reverse with
  | [] | [""] => none
  | [_] => some []
  | _ :: rest => some (dropIdle rest).reverse

theorem length_dropIdle_le (names : Names) : (dropIdle names).length ≤ names.length := by
  fun_induction dropIdle names <;> grind

theorem length_parent?_lt {names above : Names} (h : parent? names = some above) :
    above.length < names.length := by
  have bound := length_dropIdle_le names.reverse
  unfold parent? at h
  split at h
  · cases h
  · cases h
  · next eq => cases h; simp [eq] at bound; simp; omega
  · next rest _ _ eq =>
    cases h
    have := length_dropIdle_le rest
    simp only [eq, List.length_cons, List.length_reverse] at bound ⊢
    omega

/-- A path and those above it, the nearest first, without the root. -/
def ancestors (names : Names) : List Names :=
  match _h : parent? names with
  | none => []
  | some above => names :: ancestors above
termination_by names.length
decreasing_by exact length_parent?_lt _h

end HostTrust.Path
