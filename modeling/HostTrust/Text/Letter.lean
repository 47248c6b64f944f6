/-
HostTrust.Text.Letter — small and capital forms of a text.

Names are compared in small letters (`lower`) or in capitals (`upper`), and
digests without regard to the case of ASCII letters (`sameIgnoringCase`).
`lower` is the full Unicode rule: one letter may become two (İ), and a capital
sigma at the end of a word becomes the final sigma. `upper` gives the capital
form wherever it is written with ASCII letters, which is all that a comparison
with an ASCII keyword can see; other letters are left alone. On ASCII text
both are the plain ASCII maps (`lower_of_ascii`).
-/
import HostTrust.Text.CaseTable

namespace HostTrust.Text

/-- Whether a number lies in one of the ranges. -/
def inRanges (ranges : List (Nat × Nat)) (n : Nat) : Bool :=
  ranges.any fun r => r.1 ≤ n && n ≤ r.2

def isAscii (c : Char) : Bool := c.val < 0x80

/-! ## Small letters -/

/-- The small form of one character, where the word around it does not matter. -/
def lowerChar (c : Char) : List Char :=
  if isAscii c then [c.toLower]
  else if c == 'İ' then ['i', '\u0307']
  else
    match capitalRuns.find? (·.holds c.toNat) with
    | some run => [Char.ofNat (c.toNat + run.distance).toNat]
    | none => [c]

/-- Whether the character has a case and so can carry a word. -/
def isCased (c : Char) : Bool := inRanges casedRanges c.toNat

/-- Whether the character neither carries nor ends a word. -/
def isCaseless (c : Char) : Bool := inRanges caselessRanges c.toNat

/-- Whether a word goes on in the text, looking through characters that do not interrupt it. -/
def wordGoesOn (rest : List Char) : Bool :=
  match rest.dropWhile isCaseless with
  | c :: _ => isCased c
  | [] => false

/-- Small letters of a text; `inWord` says whether a word has begun before it. -/
def lowerFrom (inWord : Bool) : List Char → List Char
  | [] => []
  | c :: rest =>
    let small := if c == 'Σ' then [if inWord && !wordGoesOn rest then 'ς' else 'σ'] else lowerChar c
    small ++ lowerFrom (if isCaseless c then inWord else isCased c) rest

/-- A text in small letters. -/
def lower (s : String) : String :=
  String.ofList (lowerFrom false s.toList)

/-! ## Capitals -/

/-- The capital form of a character, where that form is written in ASCII. -/
def upperChar (c : Char) : List Char :=
  if isAscii c then [c.toUpper]
  else match c with
    | 'ı' => ['I']
    | 'ſ' => ['S']
    | 'ß' => ['S', 'S']
    | 'ﬀ' => ['F', 'F']
    | 'ﬁ' => ['F', 'I']
    | 'ﬂ' => ['F', 'L']
    | 'ﬃ' => ['F', 'F', 'I']
    | 'ﬄ' => ['F', 'F', 'L']
    | 'ﬅ' => ['S', 'T']
    | 'ﬆ' => ['S', 'T']
    | c => [c]

/-- A text in capitals, as far as they are ASCII letters. -/
def upper (s : String) : String :=
  String.ofList (s.toList.flatMap upperChar)

/-! ## Comparison -/

/-- Equality up to the case of ASCII letters. -/
def sameIgnoringCase (s t : String) : Bool :=
  s.toList.map Char.toLower == t.toList.map Char.toLower

/-- Whether a word occurs in a text. -/
def occurs (word : List Char) : List Char → Bool
  | [] => word.isEmpty
  | c :: rest => word.isPrefixOf (c :: rest) || occurs word rest

theorem sameIgnoringCase_refl (s : String) : sameIgnoringCase s s = true := by
  simp [sameIgnoringCase]

theorem lowerFrom_of_ascii {cs : List Char} (h : ∀ c ∈ cs, isAscii c = true) (inWord : Bool) :
    lowerFrom inWord cs = cs.map Char.toLower := by
  induction cs generalizing inWord with
  | nil => rfl
  | cons c rest ih =>
    have hc : isAscii c = true := h c (by simp)
    have notSigma : (c == 'Σ') = false := by
      rw [beq_eq_false_iff_ne]
      rintro rfl
      exact absurd hc (by decide)
    simp [lowerFrom, notSigma, lowerChar, hc, ih (fun d hd => h d (by simp [hd]))]

/-- ASCII text is lowered letter by letter. -/
theorem lower_of_ascii {s : String} (h : ∀ c ∈ s.toList, isAscii c = true) :
    lower s = String.ofList (s.toList.map Char.toLower) := by
  rw [lower, lowerFrom_of_ascii h]

end HostTrust.Text
