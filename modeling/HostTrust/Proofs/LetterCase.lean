/-
HostTrust.Proofs.LetterCase — texts that differ only in letter case and in the
blanks around them.

Small letters are formed with the full Unicode rule, in which a capital sigma
depends on the letters around it, and blanks around a text are dropped. The two do
not interfere: no blank has a case or a small form, and no small form is a blank,
which is a fact about tables of ranges (`Apart`). So trimming commutes with forming
small letters (`trimChars_lowerFrom`), and two texts that write one word, in any
letter case and with any blanks around it, lead to one text in small letters
(`lower_trim_eq_of_sameWord`).
-/
import HostTrust.Text.Blank
import HostTrust.Text.Letter

namespace HostTrust.Text

/-! ## Tables of ranges -/

/-- No number is in ranges of both tables. -/
def Apart (rs ss : List (Nat × Nat)) : Bool :=
  rs.all fun r => ss.all fun s => r.2 < s.1 || s.2 < r.1

theorem inRanges_eq_true_iff {rs : List (Nat × Nat)} {n : Nat} :
    inRanges rs n = true ↔ ∃ r ∈ rs, r.1 ≤ n ∧ n ≤ r.2 := by
  simp [inRanges]

theorem inRanges_eq_false_of_apart {rs ss : List (Nat × Nat)} {n : Nat}
    (apart : Apart rs ss = true) (h : inRanges rs n = true) : inRanges ss n = false := by
  obtain ⟨r, hr, least, most⟩ := inRanges_eq_true_iff.mp h
  rw [Bool.eq_false_iff, Ne, inRanges_eq_true_iff]
  rintro ⟨s, hs, least', most'⟩
  have beside := List.all_eq_true.mp (List.all_eq_true.mp apart r hr) s hs
  simp only [Bool.or_eq_true, decide_eq_true_eq] at beside
  omega

/-- The ASCII letters. -/
def letterRanges : List (Nat × Nat) := [(0x41, 0x5A), (0x61, 0x7A)]

/-- The blanks. -/
def blankRanges : List (Nat × Nat) :=
  [(9, 13), (0x20, 0x20), (0x85, 0x85), (0xA0, 0xA0), (0x1680, 0x1680), (0x2000, 0x200A),
    (0x2028, 0x2029), (0x202F, 0x202F), (0x205F, 0x205F), (0x3000, 0x3000)]

/-- Where the capitals are that have a small form of one letter. -/
def capitalRanges : List (Nat × Nat) := capitalRuns.map fun r => (r.first, r.last)

/-- Where the small forms of capitals are. -/
def smallRanges : List (Nat × Nat) :=
  capitalRuns.map fun r => ((r.first + r.distance).toNat, (r.last + r.distance).toNat)

theorem isBlank_eq (c : Char) : isBlank c = inRanges blankRanges c.toNat := by
  rw [Bool.eq_iff_iff]
  simp only [isBlank, inRanges, blankRanges, List.any_cons, List.any_nil, Bool.or_eq_true,
    Bool.and_eq_true, decide_eq_true_eq, beq_iff_eq, Bool.false_eq_true, or_false,
    UInt32.le_iff_toNat_le, ← UInt32.toNat_inj, Char.toNat, UInt32.reduceToNat]
  omega

theorem apart_letters_caseless : Apart letterRanges caselessRanges = true := by decide +kernel

theorem apart_blanks_cased : Apart blankRanges casedRanges = true := by decide +kernel

theorem apart_blanks_caseless : Apart blankRanges caselessRanges = true := by decide +kernel

theorem apart_blanks_capitals : Apart blankRanges capitalRanges = true := by decide +kernel

theorem apart_smalls_blanks : Apart smallRanges blankRanges = true := by decide +kernel

/-! ## Letter case in ASCII -/

theorem toLower_eq_self {c : Char} (h : ¬(0x41 ≤ c.toNat ∧ c.toNat ≤ 0x5A)) : c.toLower = c :=
  dif_neg h

theorem capitals_alike : ∀ n < 0x5B, 0x41 ≤ n →
    lowerChar (Char.ofNat n).toLower = lowerChar (Char.ofNat n) ∧
    isCased (Char.ofNat n).toLower = isCased (Char.ofNat n) ∧
    ((Char.ofNat n).toLower == 'Σ') = (Char.ofNat n == 'Σ') ∧
    inRanges letterRanges (Char.ofNat n).toNat = true ∧
    inRanges letterRanges (Char.ofNat n).toLower.toNat = true := by
  decide

theorem isCaseless_of_letter {c : Char} (h : inRanges letterRanges c.toNat = true) :
    isCaseless c = false :=
  inRanges_eq_false_of_apart apart_letters_caseless h

theorem isBlank_of_letter {c : Char} (h : inRanges letterRanges c.toNat = true) :
    isBlank c = false := by
  rw [isBlank_eq]
  exact inRanges_eq_false_of_apart (by decide) h

/-- Two characters play the same part in a text. -/
structure ActAlike (c d : Char) : Prop where
  small : lowerChar c = lowerChar d
  cased : isCased c = isCased d
  sigma : (c == 'Σ') = (d == 'Σ')
  caseless : isCaseless c = isCaseless d
  blank : isBlank c = isBlank d

theorem toLower_actAlike (c : Char) : ActAlike c.toLower c := by
  by_cases capital : 0x41 ≤ c.toNat ∧ c.toNat ≤ 0x5A
  · have alike := capitals_alike c.toNat (Nat.lt_succ_of_le capital.2) capital.1
    rw [Char.ofNat_toNat] at alike
    obtain ⟨small, cased, sigma, letter, letter'⟩ := alike
    exact ⟨small, cased, sigma, by rw [isCaseless_of_letter letter, isCaseless_of_letter letter'],
      by rw [isBlank_of_letter letter, isBlank_of_letter letter']⟩
  · rw [toLower_eq_self capital]
    exact ⟨rfl, rfl, rfl, rfl, rfl⟩

theorem wordGoesOn_map_toLower (cs : List Char) :
    wordGoesOn (cs.map Char.toLower) = wordGoesOn cs := by
  have caseless : isCaseless ∘ Char.toLower = isCaseless :=
    funext fun c => (toLower_actAlike c).caseless
  rw [wordGoesOn, List.dropWhile_map, caseless, wordGoesOn]
  cases cs.dropWhile isCaseless with
  | nil => rfl
  | cons c rest => exact (toLower_actAlike c).cased

theorem lowerFrom_map_toLower (inWord : Bool) (cs : List Char) :
    lowerFrom inWord (cs.map Char.toLower) = lowerFrom inWord cs := by
  induction cs generalizing inWord with
  | nil => rfl
  | cons c rest ih =>
    obtain ⟨small, cased, sigma, caseless, -⟩ := toLower_actAlike c
    simp only [List.map_cons, lowerFrom, small, cased, sigma, caseless, ih, wordGoesOn_map_toLower]

/-- Texts that are equal up to the case of ASCII letters are equal in small letters. -/
theorem lower_eq_of_sameIgnoringCase {s t : String} (h : sameIgnoringCase s t = true) :
    lower s = lower t := by
  have same : s.toList.map Char.toLower = t.toList.map Char.toLower := by
    simpa [sameIgnoringCase] using h
  rw [lower, ← lowerFrom_map_toLower, same, lowerFrom_map_toLower, lower]

/-! ## Blanks and small letters -/

theorem small_of_find {n : Nat} {run : CapitalRun}
    (h : capitalRuns.find? (·.holds n) = some run) : inRanges capitalRanges n = true ∧
      inRanges smallRanges (n + run.distance).toNat = true := by
  have mem := List.mem_of_find?_eq_some h
  have holds := List.find?_some h
  simp only [CapitalRun.holds, Bool.and_eq_true, decide_eq_true_eq] at holds
  rw [inRanges_eq_true_iff, inRanges_eq_true_iff]
  exact ⟨⟨_, List.mem_map_of_mem mem, holds.1⟩, _, List.mem_map_of_mem mem, by omega, by omega⟩

/-- A blank is no capital. -/
theorem lowerChar_of_isBlank {c : Char} (h : isBlank c = true) : lowerChar c = [c] := by
  unfold lowerChar
  split
  case isTrue =>
    rw [toLower_eq_self fun capital => ?_]
    have letter : inRanges letterRanges c.toNat = true :=
      inRanges_eq_true_iff.mpr ⟨_, .head _, capital⟩
    exact absurd h (by simp [isBlank_of_letter letter])
  case isFalse =>
    have dotted : c ≠ 'İ' := by
      rintro rfl
      exact absurd h (by decide)
    rw [if_neg (by simpa using dotted)]
    cases found : capitalRuns.find? (·.holds c.toNat) with
    | none => rfl
    | some run =>
      have none := inRanges_eq_false_of_apart apart_blanks_capitals (isBlank_eq c ▸ h)
      exact absurd (small_of_find found).1 (by simp [none])

/-- A blank has no case, and it ends a word. -/
theorem lowerFrom_cons_of_isBlank {c : Char} (h : isBlank c = true) (inWord : Bool)
    (rest : List Char) : lowerFrom inWord (c :: rest) = c :: lowerFrom false rest := by
  have blank := isBlank_eq c ▸ h
  have cased : isCased c = false := inRanges_eq_false_of_apart apart_blanks_cased blank
  have caseless : isCaseless c = false := inRanges_eq_false_of_apart apart_blanks_caseless blank
  have sigma : c ≠ 'Σ' := by
    rintro rfl
    exact absurd h (by decide)
  simp [lowerFrom, sigma, lowerChar_of_isBlank h, cased, caseless]

theorem lowerChar_ne_nil (c : Char) : lowerChar c ≠ [] := by
  unfold lowerChar
  split
  · simp
  · split
    · simp
    · split <;> simp

/-- No small form is a blank. -/
theorem isBlank_of_mem_lowerChar {c d : Char} (h : isBlank c = false) (hd : d ∈ lowerChar c) :
    isBlank d = false := by
  unfold lowerChar at hd
  split at hd
  · obtain rfl := List.mem_singleton.mp hd
    rw [(toLower_actAlike c).blank, h]
  · split at hd
    · have : d = 'i' ∨ d = '\u0307' := by simpa using hd
      rcases this with rfl | rfl <;> decide
    · split at hd
      · next run found =>
        obtain rfl := List.mem_singleton.mp hd
        by_cases valid : (c.toNat + run.distance).toNat.isValidChar
        · rw [Char.ofNat, dif_pos valid, isBlank_eq]
          exact inRanges_eq_false_of_apart apart_smalls_blanks (small_of_find found).2
        · rw [Char.ofNat, dif_neg valid]
          decide
      · obtain rfl := List.mem_singleton.mp hd
        exact h

/-- A character that is no blank becomes characters that are none. -/
theorem exists_lowerFrom_cons {c : Char} (h : isBlank c = false) (inWord : Bool)
    (rest : List Char) : ∃ small inWord', small ≠ [] ∧ (∀ d ∈ small, isBlank d = false) ∧
      lowerFrom inWord (c :: rest) = small ++ lowerFrom inWord' rest := by
  refine ⟨_, _, ?_, ?_, rfl⟩
  · split
    · simp
    · exact lowerChar_ne_nil c
  · intro d hd
    split at hd
    · split at hd <;>
      · obtain rfl := List.mem_singleton.mp hd
        decide
    · exact isBlank_of_mem_lowerChar h hd

/-! ## Trimming -/

theorem dropWhile_lowerFrom (cs : List Char) :
    (lowerFrom false cs).dropWhile isBlank = lowerFrom false (cs.dropWhile isBlank) := by
  induction cs with
  | nil => rfl
  | cons c rest ih =>
    cases blank : isBlank c with
    | true => rw [lowerFrom_cons_of_isBlank blank, List.dropWhile_cons_of_pos blank,
        List.dropWhile_cons_of_pos blank, ih]
    | false =>
      have visible : ¬isBlank c = true := by simp [blank]
      rw [List.dropWhile_cons_of_neg visible]
      obtain ⟨small, inWord, some, clear, here⟩ := exists_lowerFrom_cons blank false rest
      rw [here]
      refine dropWhile_eq_self fun d hd => clear d ?_
      cases small with
      | nil => exact absurd rfl some
      | cons e small =>
        obtain rfl : e = d := by simpa using hd
        exact .head _

/-- A word does not go on through blanks. -/
theorem wordGoesOn_append {after : List Char} (blank : ∀ c ∈ after, isBlank c = true)
    (cs : List Char) : wordGoesOn (cs ++ after) = wordGoesOn cs := by
  have ended : wordGoesOn after = false := by
    cases after with
    | nil => rfl
    | cons c rest =>
      have blank := isBlank_eq c ▸ blank c (.head _)
      have caseless : isCaseless c = false := inRanges_eq_false_of_apart apart_blanks_caseless blank
      rw [wordGoesOn, List.dropWhile_cons_of_neg (by simp [caseless])]
      exact inRanges_eq_false_of_apart apart_blanks_cased blank
  unfold wordGoesOn at ended ⊢
  rw [List.dropWhile_append]
  cases rest : cs.dropWhile isCaseless with
  | nil => exact ended
  | cons d more => rfl

theorem lowerFrom_append_of_blank {after : List Char} (blank : ∀ c ∈ after, isBlank c = true)
    (inWord : Bool) (cs : List Char) :
    lowerFrom inWord (cs ++ after) = lowerFrom inWord cs ++ after := by
  induction cs generalizing inWord with
  | nil =>
    induction after generalizing inWord with
    | nil => rfl
    | cons c rest ih =>
      obtain ⟨first, later⟩ := List.forall_mem_cons.mp blank
      exact (lowerFrom_cons_of_isBlank first inWord rest).trans (congrArg (c :: ·) (ih later false))
  | cons c rest ih =>
    simp only [List.cons_append, lowerFrom, wordGoesOn_append blank, ih, List.append_assoc]

theorem lowerFrom_cons_ne_nil (inWord : Bool) (c : Char) (rest : List Char) :
    lowerFrom inWord (c :: rest) ≠ [] := by
  rw [lowerFrom]
  refine List.append_ne_nil_of_left_ne_nil ?_ _
  split
  · simp
  · exact lowerChar_ne_nil c

theorem getLast?_lowerFrom {cs : List Char} (h : ∀ c, cs.getLast? = some c → isBlank c = false)
    (inWord : Bool) : ∀ c, (lowerFrom inWord cs).getLast? = some c → isBlank c = false := by
  induction cs generalizing inWord with
  | nil => simp [lowerFrom]
  | cons c rest ih =>
    intro d hd
    cases rest with
    | nil =>
      obtain ⟨small, _, -, clear, here⟩ := exists_lowerFrom_cons (h c rfl) inWord []
      rw [here, lowerFrom, List.append_nil] at hd
      exact clear d (List.mem_of_getLast? hd)
    | cons e more =>
      have later := ih fun f hf => h f (by rwa [List.getLast?_cons_cons])
      rw [lowerFrom, List.getLast?_append] at hd
      -- Something is left of the rest, and its last character is that of the whole.
      rcases Option.or_eq_some_iff.mp hd with last | ⟨none, -⟩
      · exact later _ d last
      · exact absurd (List.getLast?_eq_none_iff.mp none) (lowerFrom_cons_ne_nil _ e more)

theorem dropBlankEnd_append {after : List Char} (blank : ∀ c ∈ after, isBlank c = true)
    (cs : List Char) : dropBlankEnd (cs ++ after) = dropBlankEnd cs := by
  rw [dropBlankEnd, List.reverse_append,
    List.dropWhile_append_of_pos fun c hc => blank c (List.mem_reverse.mp hc), dropBlankEnd]

/-- Trimming and forming small letters do not interfere. -/
theorem trimChars_lowerFrom (cs : List Char) :
    trimChars (lowerFrom false cs) = lowerFrom false (trimChars cs) := by
  rw [trimChars, dropWhile_lowerFrom, trimChars]
  generalize cs.dropWhile isBlank = rest
  obtain ⟨after, split, blank⟩ := dropBlankEnd_isPrefix rest
  calc dropBlankEnd (lowerFrom false rest)
      = dropBlankEnd (lowerFrom false (dropBlankEnd rest) ++ after) := by
        rw [← lowerFrom_append_of_blank blank, ← split]
    _ = lowerFrom false (dropBlankEnd rest) := by
        rw [dropBlankEnd_append blank,
          dropBlankEnd_eq_self (getLast?_lowerFrom (getLast?_dropBlankEnd rest) false)]

theorem trim_lower (s : String) : trim (lower s) = lower (trim s) := by
  rw [trim, lower, String.toList_ofList, trimChars_lowerFrom, lower, trim, String.toList_ofList]

theorem trimChars_of_blanks {before after : List Char}
    (blankBefore : ∀ c ∈ before, isBlank c = true) (blankAfter : ∀ c ∈ after, isBlank c = true)
    (cs : List Char) :
    trimChars (before ++ cs ++ after) = trimChars cs := by
  have gone : after.dropWhile isBlank = [] := by
    rw [← List.append_nil after, List.dropWhile_append_of_pos blankAfter]
    rfl
  rw [List.append_assoc, trimChars, List.dropWhile_append_of_pos blankBefore, trimChars,
    List.dropWhile_append, gone]
  split
  case isTrue none => rw [List.isEmpty_iff.mp none]
  case isFalse => exact dropBlankEnd_append blankAfter _

/-! ## Words -/

/-- The text is the word with blanks around it, if any. -/
def Writes (s word : String) : Prop :=
  ∃ before after, s.toList = before ++ word.toList ++ after ∧
    (∀ c ∈ before, isBlank c = true) ∧ ∀ c ∈ after, isBlank c = true

/-- Two texts write one word, with any blanks around it and in any letter case. -/
def SameWord (s t : String) : Prop :=
  ∃ word word', Writes s word ∧ Writes t word' ∧
    (sameIgnoringCase word word' = true ∨ lower word = lower word')

theorem writes_self (s : String) : Writes s s := ⟨[], [], by simp, by simp, by simp⟩

theorem SameWord.refl (s : String) : SameWord s s :=
  ⟨s, s, writes_self s, writes_self s, .inl (sameIgnoringCase_refl s)⟩

theorem trim_of_writes {s word : String} (h : Writes s word) : trim s = trim word := by
  obtain ⟨before, after, split, blankBefore, blankAfter⟩ := h
  rw [trim, split, trimChars_of_blanks blankBefore blankAfter, trim]

theorem lower_trim_eq_of_sameWord {s t : String} (h : SameWord s t) :
    lower (trim s) = lower (trim t) := by
  obtain ⟨word, word', writes, writes', same⟩ := h
  have alike : lower word = lower word' := same.elim lower_eq_of_sameIgnoringCase id
  rw [trim_of_writes writes, trim_of_writes writes', ← trim_lower, alike, trim_lower]

end HostTrust.Text
