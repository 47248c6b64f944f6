/-
HostTrust.Text.Blank — the blank characters of running text, and trimming.

A character is blank when it has the Unicode property White_Space. Names,
versions, digests and certificates are compared after the blanks around them
are dropped; blanks inside a text are kept. The laws say that a trimmed text
neither starts nor ends with a blank, and that trimming it again changes
nothing.
-/

namespace HostTrust.Text

/-- The characters with the Unicode property White_Space. -/
def isBlank (c : Char) : Bool :=
  (9 ≤ c.val && c.val ≤ 13) || c.val == 0x20 || c.val == 0x85 || c.val == 0xA0 ||
    c.val == 0x1680 || (0x2000 ≤ c.val && c.val ≤ 0x200A) || c.val == 0x2028 ||
    c.val == 0x2029 || c.val == 0x202F || c.val == 0x205F || c.val == 0x3000

/-- Drops the blanks at the end of a list of characters. -/
def dropBlankEnd (cs : List Char) : List Char :=
  (cs.reverse.dropWhile isBlank).reverse

/-- Drops the blanks at both ends of a list of characters. -/
def trimChars (cs : List Char) : List Char :=
  dropBlankEnd (cs.dropWhile isBlank)

/-- Drops the blanks at both ends of a text. -/
def trim (s : String) : String :=
  String.ofList (trimChars s.toList)

/-- A text of blanks only is no text: what is left after trimming, if anything is. -/
def trimmed? (s : String) : Option String :=
  let t := trim s
  if t.isEmpty then none else some t

/-! ## Laws -/

theorem dropWhile_eq_self {p : Char → Bool} {cs : List Char}
    (h : ∀ c, cs.head? = some c → p c = false) : cs.dropWhile p = cs := by
  cases cs with
  | nil => rfl
  | cons c cs => simp [h c rfl]

theorem head?_dropWhile {p : Char → Bool} (cs : List Char) :
    ∀ c, (cs.dropWhile p).head? = some c → p c = false := by
  intro c hc
  have := List.head?_dropWhile_not p cs
  rw [hc] at this
  simpa using this

theorem dropBlankEnd_eq_self {cs : List Char}
    (h : ∀ c, cs.getLast? = some c → isBlank c = false) : dropBlankEnd cs = cs := by
  rw [dropBlankEnd, dropWhile_eq_self, List.reverse_reverse]
  simpa [List.head?_reverse] using h

/-- A text without blanks at its ends is left alone. -/
theorem trimChars_eq_self {cs : List Char}
    (first : ∀ c, cs.head? = some c → isBlank c = false)
    (last : ∀ c, cs.getLast? = some c → isBlank c = false) : trimChars cs = cs := by
  rw [trimChars, dropWhile_eq_self first, dropBlankEnd_eq_self last]

theorem getLast?_dropBlankEnd (cs : List Char) :
    ∀ c, (dropBlankEnd cs).getLast? = some c → isBlank c = false := by
  intro c hc
  rw [dropBlankEnd, List.getLast?_reverse] at hc
  exact head?_dropWhile _ c hc

/-- What is dropped at the end is blank. -/
theorem dropBlankEnd_isPrefix (cs : List Char) :
    ∃ tail, cs = dropBlankEnd cs ++ tail ∧ ∀ c ∈ tail, isBlank c = true := by
  refine ⟨(cs.reverse.takeWhile isBlank).reverse, ?_, fun c hc => ?_⟩
  · rw [dropBlankEnd, ← List.reverse_append, List.takeWhile_append_dropWhile, List.reverse_reverse]
  · exact List.all_eq_true.mp List.all_takeWhile c (List.mem_reverse.mp hc)

theorem head?_trimChars (cs : List Char) :
    ∀ c, (trimChars cs).head? = some c → isBlank c = false := by
  intro c hc
  obtain ⟨tail, ht, -⟩ := dropBlankEnd_isPrefix (cs.dropWhile isBlank)
  refine head?_dropWhile cs c ?_
  rw [ht]
  rw [trimChars] at hc
  cases h : dropBlankEnd (cs.dropWhile isBlank) with
  | nil => rw [h] at hc; simp at hc
  | cons d ds => rw [h] at hc; simpa using hc

end HostTrust.Text
