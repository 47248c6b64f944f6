/-
HostTrust.Proofs.CompactReading — the reader of documents reads the compact form.

The compact form of a value is read as the document of this value, with nothing
left over (`Doc.ofLetters_decode_toBytes`), if its numbers are integers that fit
in a word and its brackets are not nested too deep for the reader. So a text that
was written from a value and the value itself are one document to any format.

The parts of a written value are read one after the other, whatever follows
them, as long as it cannot be taken for more of a number (`Doc.Closed`): the
escapes of a string, the digits of an integer, then values, items and members by
recursion on the value. Each level of the reader costs one step, and a written
value has a character for each of its levels, so its length bounds the steps.
-/
import HostTrust.Json.Reader
import HostTrust.Proofs.CompactForm

namespace HostTrust

open Text (Letter)

/-! ## What follows a value -/

namespace Json.Doc

/-- What may stand behind a written value: a comma, a closing bracket, or nothing. -/
def Closed (r : List Letter) : Prop :=
  ∀ l, r.head? = some l → l = some ',' ∨ l = some ']' ∨ l = some '\x7d'

theorem closed_nil : Closed [] := by
  intro l h
  cases h

theorem closed_itemTail (items : List Json) (r : List Letter) :
    Closed ((itemTail items).map some ++ r) := by
  intro l h
  cases items with
  | nil => exact .inr (.inl (Option.some.inj h).symm)
  | cons v rest => exact .inl (Option.some.inj h).symm

theorem closed_memberTail (members : List (String × Json)) (r : List Letter) :
    Closed ((memberTail members).map some ++ r) := by
  intro l h
  cases members with
  | nil => exact .inr (.inr (Option.some.inj h).symm)
  | cons m rest => exact .inl (Option.some.inj h).symm

theorem Closed.digitValue?_eq_none {r : List Letter} (closed : Closed r) :
    ∀ l, r.head? = some l → Number.digitValue? l = none := by
  intro l h
  rcases closed l h with rfl | rfl | rfl <;> rfl

end Json.Doc

/-! ## Integers -/

namespace Number

theorem digitValue?_of_isDigit {c : Char} (h : c.isDigit = true) :
    digitValue? (some c) = some (c.toNat - '0'.toNat) := by
  have range : '0' ≤ c ∧ c ≤ '9' := by
    simpa [Char.isDigit, Char.le_def] using h
  simp only [digitValue?]
  rw [if_pos range]
  rfl

theorem le_ofDigitChars (ds : List Char) (word : Nat) : word ≤ Nat.ofDigitChars 10 ds word := by
  rw [Nat.ofDigitChars_eq_ofDigitChars_zero]
  have scale : 1 * word ≤ 10 ^ ds.length * word :=
    Nat.mul_le_mul_right word (Nat.one_le_pow _ _ (by decide))
  omega

/-- Digits whose value fits in a word are all collected. -/
theorem collect_digits {ds : List Char} (digits : ∀ c ∈ ds, c.isDigit = true) {word : Nat}
    (fits : Nat.ofDigitChars 10 ds word ≤ wordMax) (taken : Nat) {r : List Letter}
    (stops : ∀ l, r.head? = some l → digitValue? l = none) :
    collect word taken (ds.map some ++ r) =
      (Nat.ofDigitChars 10 ds word, taken + ds.length, r) := by
  induction ds generalizing word taken with
  | nil =>
    cases r with
    | nil => rfl
    | cons l rest =>
      rw [List.map_nil, List.nil_append, collect]
      simp only [stops l rfl]
      rfl
  | cons c ds ih =>
    rw [Nat.ofDigitChars_cons] at fits
    have next : word * 10 + (c.toNat - '0'.toNat) = 10 * word + (c.toNat - '0'.toNat) := by omega
    have room : 10 * word + (c.toNat - '0'.toNat) ≤ wordMax :=
      Nat.le_trans (le_ofDigitChars ds _) fits
    rw [List.map_cons, List.cons_append, collect]
    simp only [digitValue?_of_isDigit (digits c (.head _)), next]
    rw [if_pos room, ih (fun d hd => digits d (.tail _ hd)) fits, Nat.ofDigitChars_cons,
      List.length_cons]
    simp only [Nat.add_assoc, Nat.add_comm 1]

theorem skipDigits_of_stops {r : List Letter}
    (stops : ∀ l, r.head? = some l → digitValue? l = none) : skipDigits 0 r = (0, r) := by
  cases r with
  | nil => rfl
  | cons l rest =>
    rw [skipDigits]
    simp only [stops l rfl]

/-- A positive number is written without a zero in front. -/
theorem exists_toDigits_eq_cons {n : Nat} (positive : 0 < n) :
    ∃ c ds, Nat.toDigits 10 n = c :: ds ∧ c ≠ '0' := by
  induction n using Nat.strongRecOn with
  | _ n ih =>
    rw [Nat.toDigits_eq_if (by decide)]
    split
    case isTrue small =>
      refine ⟨n.digitChar, [], rfl, ?_⟩
      have each : ∀ d < 10, 0 < d → Nat.digitChar d ≠ '0' := by decide
      exact each n small positive
    case isFalse large =>
      obtain ⟨c, ds, split, other⟩ := ih (n / 10) (by omega) (by omega)
      exact ⟨c, ds ++ [(n % 10).digitChar], by rw [split]; rfl, other⟩

theorem isDigit_of_toDigits {n : Nat} {c : Char} {ds : List Char}
    (split : Nat.toDigits 10 n = c :: ds) : ∀ d ∈ c :: ds, d.isDigit = true := by
  intro d hd
  exact Nat.isDigit_of_mem_toDigits (b := 10) (n := n) (by decide) (by decide) (split ▸ hd)

theorem readUnsigned_toDigits {n : Nat} (fits : n ≤ wordMax) (negative : Bool) {r : List Letter}
    (stops : ∀ l, r.head? = some l → digitValue? l = none) :
    readUnsigned negative ((Nat.toDigits 10 n).map some ++ r) =
      readAfterWhole negative n 0 r := by
  by_cases zero : n = 0
  · subst zero
    have next : r.head?.bind digitValue? = none := by
      cases r with
      | nil => rfl
      | cons l rest => exact stops l rfl
    show readUnsigned negative (some '0' :: r) = _
    rw [readUnsigned]
    simp only [show digitValue? (some '0') = some 0 from rfl, next]
  · obtain ⟨c, ds, split, other⟩ := exists_toDigits_eq_cons (Nat.pos_of_ne_zero zero)
    have digits := isDigit_of_toDigits split
    have value : Nat.ofDigitChars 10 ds (c.toNat - '0'.toNat) = n := by
      have whole : Nat.ofDigitChars 10 (c :: ds) 0 = n := by
        rw [← split, Nat.ofDigitChars_ten_toDigits]
      simpa [Nat.ofDigitChars_cons] using whole
    have first : digitValue? (some c) = some (c.toNat - '0'.toNat) :=
      digitValue?_of_isDigit (digits c (.head _))
    have least : 0 < c.toNat - '0'.toNat := by
      have code : c.toNat ≠ '0'.toNat := fun same => other (Char.toNat_inj.mp same)
      have range : '0'.toNat ≤ c.toNat := by
        have digit := digits c (.head _)
        simp only [Char.isDigit, Bool.and_eq_true, decide_eq_true_eq] at digit
        exact UInt32.le_iff_toNat_le.mp digit.1
      omega
    have word : collect (c.toNat - '0'.toNat) 0 (ds.map some ++ r) = (n, 0 + ds.length, r) := by
      rw [collect_digits (fun d hd => digits d (.tail _ hd)) (by omega) 0 stops, value]
    rw [split, List.map_cons, List.cons_append, readUnsigned]
    generalize c.toNat - '0'.toNat = d at first least word
    obtain ⟨k, rfl⟩ := Nat.exists_eq_succ_of_ne_zero (Nat.ne_of_gt least)
    simp only [first, word, skipDigits_of_stops stops]

/-- A whole number ends where nothing follows that belongs to a number. -/
theorem readAfterWhole_of_closed {r : List Letter} (closed : Json.Doc.Closed r) (negative : Bool)
    (word : Nat) : readAfterWhole negative word 0 r =
      if !negative then (.number (some (.int word)), r)
      else if word = 0 ∨ Nat.pow 2 63 < word then (signed true (Binary64.ofNat? word), r)
      else (.number (some (.int (-word))), r) := by
  cases r with
  | nil => rfl
  | cons l rest => rcases closed l rfl with rfl | rfl | rfl <;> rfl

/-- An integer is in the range of the words with and without a sign. -/
def InRange (n : Int) : Prop := -Nat.pow 2 63 ≤ n ∧ n < Nat.pow 2 64

instance (n : Int) : Decidable (InRange n) := inferInstanceAs (Decidable (_ ∧ _))

theorem read_intChars {n : Int} (range : InRange n) {r : List Letter}
    (closed : Json.Doc.Closed r) :
    read ((Numeral.int n).chars.map some ++ r) = (.number (some (.int n)), r) := by
  obtain ⟨least, greatest⟩ := range
  have stops := closed.digitValue?_eq_none
  have words : Nat.pow 2 64 = wordMax + 1 := by decide
  have half : Nat.pow 2 63 ≤ wordMax := by decide
  have fits : n.natAbs ≤ wordMax := by omega
  rw [Numeral.chars]
  split
  case isTrue negative =>
    have magnitude : ¬(n.natAbs = 0 ∨ Nat.pow 2 63 < n.natAbs) := by omega
    have value : -(n.natAbs : Int) = n := by omega
    show readUnsigned true ((Nat.toDigits 10 n.natAbs).map some ++ r) = _
    rw [readUnsigned_toDigits fits true stops, readAfterWhole_of_closed closed]
    rw [if_neg (by decide), if_neg magnitude, value]
  case isFalse positive =>
    have value : (n.natAbs : Int) = n := by omega
    have unsigned : read ((Nat.toDigits 10 n.natAbs).map some ++ r) =
        readUnsigned false ((Nat.toDigits 10 n.natAbs).map some ++ r) := by
      rw [read]
      intro rest same
      cases split : Nat.toDigits 10 n.natAbs with
      | nil => exact Nat.toDigits_ne_nil split
      | cons c ds =>
        have digit := isDigit_of_toDigits split c (.head _)
        rw [split] at same
        obtain rfl : c = '-' := Option.some.inj (List.cons.inj same).1
        exact absurd digit (by decide)
    show read ((Nat.toDigits 10 n.natAbs).map some ++ r) = _
    rw [unsigned, readUnsigned_toDigits fits false stops, readAfterWhole_of_closed closed]
    rw [if_pos (by decide), value]

end Number

namespace Json

namespace Doc

/-! ## Strings -/

theorem readString_unit (s : StringSoFar) {a b c d : Letter} {unit : Nat} (rest : List Letter)
    (h : unit? a b c d = some unit) (single : unit < 0xD800) :
    readString s (some '\\' :: some 'u' :: a :: b :: c :: d :: rest) =
      readString (s.addUnit unit) rest := by
  have noPair : ∀ low, isPair unit low = false := by
    intro low
    simp only [isPair, Bool.and_eq_false_iff, decide_eq_false_iff_not]
    omega
  rw [readString.eq_def]
  split
  case h_1 same => cases same
  case h_2 same => cases same
  case h_3 e f g h' rest' same =>
    cases same
    cases unit? e f g h' with
    | none => simp only [h]
    | some low => simp only [h, noPair low, Bool.false_eq_true, if_false]
  case h_4 same =>
    cases same
    simp only [h]
  case h_5 other same =>
    cases same
    exact absurd rfl (other a b c d rest rfl)
  case h_6 other same =>
    cases same
    exact absurd rfl (other 'u' _)
  case h_7 other same =>
    cases same
    exact (other rfl).elim
  case h_8 same => cases same

theorem readString_short (s : StringSoFar) {c e : Char} (rest : List Letter)
    (h : shortEscape? c = some e) :
    readString s (some '\\' :: some c :: rest) = readString (s.add e) rest := by
  rw [readString.eq_def]
  split
  case h_1 same => cases same
  case h_2 same => cases same
  case h_3 same =>
    cases same
    cases h
  case h_4 same =>
    cases same
    cases h
  case h_5 same =>
    cases same
    simp only [h]
  case h_6 other same =>
    cases same
    exact absurd rfl (other c _)
  case h_7 other same =>
    cases same
    exact (other rfl).elim
  case h_8 same => cases same

theorem readString_plain (s : StringSoFar) {c : Char} (rest : List Letter) (quote : c ≠ '"')
    (backslash : c ≠ '\\') (printable : 0x20 ≤ c.toNat) :
    readString s (some c :: rest) = readString (s.add c) rest := by
  rw [readString.eq_def]
  split
  case h_1 same => cases same
  case h_2 same =>
    cases same
    exact absurd rfl quote
  case h_7 same =>
    cases same
    rw [if_neg (by omega)]
  case h_8 same => cases same
  all_goals
    next same =>
      cases same
      exact absurd rfl backslash

theorem unit?_control : ∀ n < 0x20, unit? (some '0') (some '0') (some (Nat.digitChar (n / 16)))
    (some (Nat.digitChar (n % 16))) = some n := by
  decide

/-- What stands for a character in a string is read as this character. -/
theorem readString_escapeChar (s : StringSoFar) (c : Char) (rest : List Letter) :
    readString s ((escapeChar c).map some ++ rest) = readString (s.add c) rest := by
  have short : ∀ d e, c == d → shortEscape? e = some d →
      readString s ((['\\', e]).map some ++ rest) = readString (s.add c) rest := by
    intro d e same h
    rw [eq_of_beq same]
    exact readString_short s rest h
  unfold escapeChar
  split
  case isTrue h => exact short _ '"' h rfl
  case isFalse quote =>
  split
  case isTrue h => exact short _ '\\' h rfl
  case isFalse backslash =>
  split
  case isTrue printable =>
    exact readString_plain s rest (fun h => quote (beq_of_eq h)) (fun h => backslash (beq_of_eq h))
      printable
  case isFalse control =>
  split
  case isTrue h => exact short _ 'b' h rfl
  split
  case isTrue h => exact short _ 't' h rfl
  split
  case isTrue h => exact short _ 'n' h rfl
  split
  case isTrue h => exact short _ 'f' h rfl
  split
  case isTrue h => exact short _ 'r' h rfl
  -- What is left is written by its number.
  have small : c.toNat < 0x20 := Nat.not_le.mp control
  have char : s.addUnit c.toNat = s.add c := by
    have valid : c.toNat.isValidChar := c.valid
    rw [StringSoFar.addUnit, if_pos valid, Char.ofNat_toNat]
  have unit := readString_unit s rest (unit?_control c.toNat small) (by omega)
  rw [← char]
  exact unit

/-- The inside of a string is read up to its closing quote. -/
theorem readString_chars (s : StringSoFar) (cs : List Char) (rest : List Letter) :
    readString s ((cs.flatMap escapeChar).map some ++ some '"' :: rest) =
      some (({ s with latest := cs.reverse ++ s.latest } : StringSoFar).finish, rest) := by
  induction cs generalizing s with
  | nil =>
    show readString s (some '"' :: rest) = _
    rw [readString]
    rfl
  | cons c cs ih =>
    rw [List.flatMap_cons, List.map_append, List.append_assoc, readString_escapeChar, ih]
    simp [StringSoFar.add]

theorem readString_stringChars (t : String) (rest : List Letter) :
    ∃ inside, (stringChars t).map some ++ rest = some '"' :: inside ∧
      readString ⟨[], true⟩ inside = some (some t, rest) := by
  refine ⟨(t.toList.flatMap escapeChar).map some ++ some '"' :: rest, ?_, ?_⟩
  · simp [stringChars]
  · rw [readString_chars]
    simp [StringSoFar.finish]

end Doc

/-! ## Values that can be written and read -/

mutual

/-- The numbers of the value are integers in range. -/
def Integral : Json → Prop
  | .number (.int n) => Number.InRange n
  | .number (.float _) => False
  | .list items => ItemsIntegral items
  | .object members => MembersIntegral members
  | .null | .bool _ | .text _ => True

def ItemsIntegral : List Json → Prop
  | [] => True
  | v :: rest => Integral v ∧ ItemsIntegral rest

def MembersIntegral : List (String × Json) → Prop
  | [] => True
  | (_, v) :: rest => Integral v ∧ MembersIntegral rest

end

mutual

/-- How many brackets are open at the deepest place of the value. -/
def depth : Json → Nat
  | .list items => itemsDepth items + 1
  | .object members => membersDepth members + 1
  | .null | .bool _ | .number _ | .text _ => 0

def itemsDepth : List Json → Nat
  | [] => 0
  | v :: rest => max (depth v) (itemsDepth rest)

def membersDepth : List (String × Json) → Nat
  | [] => 0
  | (_, v) :: rest => max (depth v) (membersDepth rest)

end

mutual

theorem floatFree_of_integral : ∀ v : Json, Integral v → FloatFree v
  | .null, _ | .bool _, _ | .text _, _ | .number (.int _), _ => trivial
  | .number (.float _), h => h
  | .list items, h => itemsFloatFree_of_integral items h
  | .object members, h => membersFloatFree_of_integral members h

theorem itemsFloatFree_of_integral : ∀ items : List Json, ItemsIntegral items →
    ItemsFloatFree items
  | [], _ => trivial
  | v :: rest, h => ⟨floatFree_of_integral v h.1, itemsFloatFree_of_integral rest h.2⟩

theorem membersFloatFree_of_integral : ∀ members : List (String × Json),
    MembersIntegral members → MembersFloatFree members
  | [], _ => trivial
  | (_, v) :: rest, h => ⟨floatFree_of_integral v h.1, membersFloatFree_of_integral rest h.2⟩

end

namespace Doc

theorem Closed.skipGap {r : List Letter} (closed : Closed r) : skipGap r = r := by
  cases r with
  | nil => rfl
  | cons l rest => rcases closed l rfl with rfl | rfl | rfl <;> rfl

/-- What shows a kind of value is no blank. -/
theorem isGap_eq_false {c : Char} {v : Json} (shown : kindOf c = kind v) :
    isGap (some c) = false := by
  cases gap : isGap (some c) with
  | false => rfl
  | true =>
    simp only [isGap, Bool.or_eq_true, beq_iff_eq] at gap
    have known := shown ▸ kind_mem v
    rcases gap with ((rfl | rfl) | rfl) | rfl <;> exact absurd known (by decide)

/-- A written value begins with no blank and not with a closing bracket. -/
theorem exists_chars_append {v : Json} (integral : Integral v) (r : List Letter) :
    ∃ c rest, (chars v).map some ++ r = some c :: rest ∧ kindOf c = kind v ∧
      skipGap ((chars v).map some ++ r) = some c :: rest := by
  obtain ⟨c, more, split, shown⟩ := head?_chars (floatFree_of_integral v integral)
  refine ⟨c, more.map some ++ r, by rw [split]; rfl, shown, ?_⟩
  rw [split, List.map_cons, List.cons_append, skipGap]
  exact List.dropWhile_cons_of_neg (by simp [isGap_eq_false shown])

theorem chars_length_pos {v : Json} (integral : Integral v) : 0 < (chars v).length := by
  obtain ⟨c, more, split, -⟩ := head?_chars (floatFree_of_integral v integral)
  rw [split]
  exact Nat.succ_pos _

/-- What begins like a number is read as a number. -/
theorem read_of_number (steps room : Nat) {cs rest : List Letter} {c : Char}
    (starts : skipGap cs = some c :: rest) (shown : kindOf c = '0') :
    read (steps + 1) room cs = readNumber (some c :: rest) := by
  rw [read, starts]
  split
  case h_7 => rfl
  all_goals
    next same =>
      cases same
      exact absurd shown (by decide)

/-- Brackets that may be opened give what they hold. -/
theorem bracketed_of_pos {room : Nat} (h : 0 < room) (content : Doc)
    (rest : Option (List Letter)) : bracketed room content rest = (content, rest) :=
  if_neg (Nat.ne_of_gt h)

/-- A list that does not end at once has items. -/
theorem read_of_bracket (steps room : Nat) {cs rest : List Letter} {c : Char}
    (starts : skipGap cs = some c :: rest) (inside : c ≠ ']') :
    read (steps + 1) room (some '[' :: cs) =
      bracketed room (.list (readItems steps (room - 1) [] (some c :: rest)).1)
        (readItems steps (room - 1) [] (some c :: rest)).2 := by
  have opens : skipGap (some '[' :: cs) = some '[' :: cs := rfl
  rw [read]
  simp only [opens, starts]
  split
  case h_1 same =>
    cases same
    exact absurd rfl inside
  case h_2 => rfl

/-- An object that begins with a quote has members. -/
theorem read_of_brace (steps room : Nat) (rest : List Letter) :
    read (steps + 1) room (some '\x7b' :: some '"' :: rest) =
      bracketed room (.object (readMembers steps (room - 1) [] (some '"' :: rest)).1)
        (readMembers steps (room - 1) [] (some '"' :: rest)).2 := rfl

theorem itemTail_length_pos (items : List Json) : 0 < (itemTail items).length := by
  cases items <;> exact Nat.succ_pos _

theorem memberTail_length_pos (members : List (String × Json)) :
    0 < (memberTail members).length := by
  cases members <;> exact Nat.succ_pos _

theorem itemChars_append (v : Json) (rest : List Json) (r : List Letter) :
    (itemChars (v :: rest)).map some ++ r =
      (chars v).map some ++ ((itemTail rest).map some ++ r) := by
  rw [itemChars_cons, List.map_append, List.append_assoc]

theorem length_itemChars (v : Json) (rest : List Json) :
    (itemChars (v :: rest)).length = (chars v).length + (itemTail rest).length := by
  rw [itemChars_cons, List.length_append]

/-- A member is its key, a colon, its value, and what follows it. -/
theorem memberChars_append (k : String) (v : Json) (rest : List (String × Json))
    (r : List Letter) : (memberChars ((k, v) :: rest)).map some ++ r =
      (stringChars k).map some ++
        some ':' :: ((chars v).map some ++ ((memberTail rest).map some ++ r)) := by
  rw [memberChars_cons]
  simp

theorem length_memberChars (k : String) (v : Json) (rest : List (String × Json)) :
    (memberChars ((k, v) :: rest)).length =
      (stringChars k).length + ((chars v).length + (memberTail rest).length) + 1 := by
  rw [memberChars_cons, List.length_append, List.length_cons, List.length_append]
  omega

mutual

/-- A written value is read as its document, and nothing behind it is touched. -/
theorem read_chars : ∀ (v : Json) {steps room : Nat} {r : List Letter}, Integral v →
    depth v ≤ room → (chars v).length ≤ steps → Closed r →
    read steps room ((chars v).map some ++ r) = (ofJson v, some r)
  | .null, steps + 1, _, _, _, _, _, _ => rfl
  | .bool true, steps + 1, _, _, _, _, _, _ => rfl
  | .bool false, steps + 1, _, _, _, _, _, _ => rfl
  | .number (.int n), steps + 1, room, r, integral, _, _, closed => by
    obtain ⟨c, rest, split, shown, starts⟩ := exists_chars_append integral r
    rw [read_of_number steps room starts shown, ← split, chars, readNumber,
      Number.read_intChars integral closed, ofJson]
  | .number (.float _), _, _, _, integral, _, _, _ => integral.elim
  | .text s, steps + 1, room, r, _, _, _, _ => by
    obtain ⟨inside, split, reading⟩ := readString_stringChars s r
    have opens : skipGap (some '"' :: inside) = some '"' :: inside := rfl
    rw [chars, split, read]
    simp only [opens, reading]
    rfl
  | .list [], steps + 1, room, r, _, nested, _, _ => bracketed_of_pos nested _ _
  | .list (v :: rest), steps + 1, room, r, integral, nested, long, _ => by
    rw [depth] at nested
    rw [chars, List.length_cons] at long
    obtain ⟨c, more, split, shown, starts⟩ :=
      exists_chars_append integral.1 ((itemTail rest).map some ++ r)
    have inside : c ≠ ']' := fun same => kindOf_bracket_ne v (same ▸ shown)
    rw [← itemChars_append] at split starts
    rw [chars, List.map_cons, List.cons_append, read_of_bracket steps room starts inside, ← split,
      readItems_itemChars v rest [] integral (by omega) (by omega), bracketed_of_pos (by omega)]
    rfl
  | .object [], steps + 1, room, r, _, nested, _, _ => bracketed_of_pos nested _ _
  | .object ((k, v) :: rest), steps + 1, room, r, integral, nested, long, _ => by
    rw [depth] at nested
    rw [chars, List.length_cons] at long
    obtain ⟨inside, split, -⟩ := readString_stringChars k
      (some ':' :: ((chars v).map some ++ ((memberTail rest).map some ++ r)))
    rw [← memberChars_append] at split
    rw [chars, List.map_cons, List.cons_append, split, read_of_brace, ← split,
      readMembers_memberChars k v rest [] integral (by omega) (by omega),
      bracketed_of_pos (by omega)]
    rfl
  | v, 0, _, _, integral, _, long, _ =>
    absurd (chars_length_pos integral) (Nat.not_lt.mpr long)

theorem readItems_itemChars : ∀ (v : Json) (rest : List Json) (before : List Doc)
    {steps room : Nat} {r : List Letter}, ItemsIntegral (v :: rest) →
    itemsDepth (v :: rest) ≤ room → (itemChars (v :: rest)).length ≤ steps →
    readItems steps room before ((itemChars (v :: rest)).map some ++ r) =
      (before.reverse ++ ofItems (v :: rest), some r)
  | v, rest, before, steps + 1, room, r, integral, nested, long => by
    rw [itemsDepth] at nested
    rw [length_itemChars] at long
    have closed := closed_itemTail rest r
    have tail := itemTail_length_pos rest
    rw [itemChars_append, readItems,
      read_chars v integral.1 (by omega) (by omega) closed]
    simp only [closed.skipGap]
    match rest with
    | [] => simp [itemTail, ofItems]
    | w :: ws =>
      rw [itemTail, List.length_cons] at long
      have later := readItems_itemChars w ws (ofJson v :: before) (r := r) integral.2
        (show itemsDepth (w :: ws) ≤ room by omega)
        (show (itemChars (w :: ws)).length ≤ steps by omega)
      simp only [itemTail, List.map_cons, List.cons_append, later]
      rw [List.reverse_cons, List.append_assoc]
      rfl
  | v, rest, _, 0, _, _, _, _, long => by
    have tail := itemTail_length_pos rest
    rw [length_itemChars] at long
    omega

theorem readMembers_memberChars : ∀ (k : String) (v : Json) (rest : List (String × Json))
    (before : List (Option String × Doc)) {steps room : Nat} {r : List Letter},
    MembersIntegral ((k, v) :: rest) → membersDepth ((k, v) :: rest) ≤ room →
    (memberChars ((k, v) :: rest)).length ≤ steps →
    readMembers steps room before ((memberChars ((k, v) :: rest)).map some ++ r) =
      (before.reverse ++ ofMembers ((k, v) :: rest), some r)
  | k, v, rest, before, steps + 1, room, r, integral, nested, long => by
    rw [membersDepth] at nested
    rw [length_memberChars] at long
    have closed := closed_memberTail rest r
    have tail := memberTail_length_pos rest
    obtain ⟨inside, split, reading⟩ := readString_stringChars k
      (some ':' :: ((chars v).map some ++ ((memberTail rest).map some ++ r)))
    have opens : skipGap (some '"' :: inside) = some '"' :: inside := rfl
    have colon : ∀ cs, skipGap (some ':' :: cs) = some ':' :: cs := fun _ => rfl
    rw [memberChars_append, split, readMembers]
    simp only [opens, reading, colon, closed.skipGap,
      read_chars v integral.1 (show depth v ≤ room by omega)
        (show (chars v).length ≤ steps by omega) closed]
    match rest with
    | [] => simp [memberTail, ofMembers]
    | (l, w) :: ws =>
      rw [memberTail, List.length_cons] at long
      have later := readMembers_memberChars l w ws ((some k, ofJson v) :: before) (r := r)
        integral.2 (show membersDepth ((l, w) :: ws) ≤ room by omega)
        (show (memberChars ((l, w) :: ws)).length ≤ steps by omega)
      simp only [memberTail, List.map_cons, List.cons_append, later]
      rw [List.reverse_cons, List.append_assoc]
      rfl
  | k, v, rest, _, 0, _, _, _, _, long => by
    rw [length_memberChars] at long
    omega

end

/-- The compact form of a value is the document of this value and nothing else. -/
theorem ofLetters_decode_toBytes {v : Json} (integral : Integral v)
    (nested : depth v ≤ greatestDepth) :
    ofLetters (Text.decode v.toBytes) = (ofJson v, some []) := by
  have letters : Text.decode v.toBytes = (chars v).map some ++ [] := by
    rw [toBytes, Text.decode_encodeChars, List.append_nil]
  rw [letters, ofLetters]
  exact read_chars v integral nested (by simp; omega) closed_nil

end Doc

end Json

end HostTrust
