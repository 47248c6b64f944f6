/-
HostTrust.Xml.Reference — character data with its references replaced.

A reference names one of five characters or gives a character by its number,
in decimal digits or, after `x`, in hexadecimal ones. An ampersand must begin
a reference, whose semicolon comes before the next ampersand. `escape` writes
text so that `expand` gives it back.
-/
import HostTrust.Text.Utf8

namespace HostTrust.Xml

/-- The value of digits in a base, if they are digits and there is one. -/
def numeral? (base : Nat) (digits : List Char) : Option Nat :=
  let value? (c : Char) : Option Nat :=
    let n :=
      if '0' ≤ c ∧ c ≤ '9' then c.toNat - 48
      else if 'a' ≤ c ∧ c ≤ 'z' then c.toNat - 87
      else if 'A' ≤ c ∧ c ≤ 'Z' then c.toNat - 55
      else base
    if n < base then some n else none
  if digits.isEmpty then none
  else digits.foldlM (fun n c => do return n * base + (← value? c)) 0

/-- The character of a reference, given without `&` and `;`. -/
def referent? (name : List Char) : Option Char :=
  match name with
  | ['l', 't'] => some '<'
  | ['g', 't'] => some '>'
  | ['a', 'm', 'p'] => some '&'
  | ['a', 'p', 'o', 's'] => some '\''
  | ['q', 'u', 'o', 't'] => some '"'
  | '#' :: digits => do
    let n ← match digits with
      | 'x' :: digits => numeral? 16 digits
      | digits => numeral? 10 digits
    if n ≠ 0 ∧ n.isValidChar then some (Char.ofNat n) else none
  | _ => none

/-- Replaces the references of character data. While a reference is being read, `name` holds
what has been read of it, the latest character first. -/
def expandFrom (name : Option (List Char)) : List Char → Option (List Char)
  | [] => if name.isNone then some [] else none
  | c :: rest =>
    match name with
    | none => if c = '&' then expandFrom (some []) rest else (c :: ·) <$> expandFrom none rest
    | some latest =>
      if c = ';' then do
        let r ← referent? latest.reverse
        (r :: ·) <$> expandFrom none rest
      else if c = '&' then none
      else expandFrom (some (c :: latest)) rest

/-- Character data with its references replaced; nothing if one of them is none. -/
def expand (cs : List Char) : Option (List Char) := expandFrom none cs

/-- A character as character data. -/
def escapeChar (c : Char) : List Char :=
  match c with
  | '<' => "&lt;".toList
  | '>' => "&gt;".toList
  | '&' => "&amp;".toList
  | '\'' => "&apos;".toList
  | '"' => "&quot;".toList
  | c => [c]

/-- Text as character data. -/
def escape (cs : List Char) : List Char := cs.flatMap escapeChar

/-! ## Laws -/

theorem expandFrom_escapeChar (c : Char) (more : List Char) :
    expandFrom none (escapeChar c ++ more) = (c :: ·) <$> expandFrom none more := by
  unfold escapeChar
  split <;> simp_all [expandFrom, referent?]

/-- Text written as character data is read back. -/
theorem expand_escape (cs : List Char) : expand (escape cs) = some cs := by
  induction cs with
  | nil => rfl
  | cons c rest ih =>
    rw [expand, escape, List.flatMap_cons, expandFrom_escapeChar]
    exact congrArg (Option.map (c :: ·)) ih

end HostTrust.Xml
