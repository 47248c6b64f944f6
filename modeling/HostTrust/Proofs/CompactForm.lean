/-
HostTrust.Proofs.CompactForm — the compact form determines the value.

A value without floating point numbers can be told from its written form, and
the place where that form ends can be told too, as long as no digit follows it
(`chars_append_inj`). Three facts carry this. The first character shows what
kind of value is written (`kind_eq_of_chars_append`). The escapes are a prefix
code, so a string ends at its first quote that is no part of an escape
(`stringChars_append_inj`). And the digits of an integer end where no digit
follows (`intChars_append_inj`). Lists and objects are read off item by item,
by recursion on the value.

Bytes determine the characters (`Text.encodeChars_injective`), so different
values have different bytes (`toBytes_injective`).
-/
import HostTrust.Json.Printer

namespace HostTrust

theorem Text.encodeChars_injective {cs ds : List Char} (h : encodeChars cs = encodeChars ds) :
    cs = ds := by
  have bytes : cs.utf8Encode = ds.utf8Encode := congrArg List.toByteArray h
  have letters : some cs.toArray = some ds.toArray := by
    rw [← List.utf8Decode?_utf8Encode, bytes, List.utf8Decode?_utf8Encode]
  simpa using letters

namespace Json

/-! ## Values without floating point numbers -/

mutual

/-- There is no floating point number in the value. -/
def FloatFree : Json → Prop
  | .number (.float _) => False
  | .list items => ItemsFloatFree items
  | .object members => MembersFloatFree members
  | .null | .bool _ | .number (.int _) | .text _ => True

def ItemsFloatFree : List Json → Prop
  | [] => True
  | v :: rest => FloatFree v ∧ ItemsFloatFree rest

def MembersFloatFree : List (String × Json) → Prop
  | [] => True
  | (_, v) :: rest => FloatFree v ∧ MembersFloatFree rest

end

/-! ## Strings -/

/-- The characters that are escaped. -/
def escaped : List Char := '"' :: '\\' :: (List.range 0x20).map Char.ofNat

theorem escapeChar_eq_self {c : Char} (h : c ∉ escaped) : escapeChar c = [c] := by
  have quote : c ≠ '"' := fun same => h (same ▸ .head _)
  have backslash : c ≠ '\\' := fun same => h (same ▸ .tail _ (.head _))
  have printable : 0x20 ≤ c.toNat := by
    refine Nat.not_lt.mp fun control => h (.tail _ (.tail _ (List.mem_map.mpr ⟨c.toNat, ?_, ?_⟩)))
    · exact List.mem_range.mpr control
    · exact Char.ofNat_toNat c
  simp [escapeChar, quote, backslash, printable]

/-- An escape begins with a backslash, and no escape is the beginning of another one. -/
theorem escapeChar_of_mem : (escaped.all fun c => (escapeChar c).head? == some '\\' &&
    escaped.all fun d => !(escapeChar c).isPrefixOf (escapeChar d) || c == d) = true := by
  decide +kernel

/-- What stands for a character does not begin with a quote, and it begins with a backslash exactly
if it is an escape. -/
theorem head?_escapeChar (c : Char) :
    (c ∉ escaped ∧ escapeChar c = [c]) ∨ (c ∈ escaped ∧ (escapeChar c).head? = some '\\') := by
  by_cases mem : c ∈ escaped
  · have facts := List.all_eq_true.mp escapeChar_of_mem c mem
    simp only [Bool.and_eq_true, beq_iff_eq] at facts
    exact .inr ⟨mem, facts.1⟩
  · exact .inl ⟨mem, escapeChar_eq_self mem⟩

/-- The escapes are a prefix code. -/
theorem eq_of_escapeChar_begins {c d : Char} (h : escapeChar c <+: escapeChar d) : c = d := by
  have starts : (escapeChar c).head? = (escapeChar d).head? := by
    obtain ⟨more, same⟩ := h
    rw [← same]
    rcases head?_escapeChar c with ⟨-, plain⟩ | ⟨-, backslash⟩
    · simp [plain]
    · simp [List.head?_append, backslash]
  rcases head?_escapeChar c with ⟨plainC, selfC⟩ | ⟨escapedC, backslashC⟩
  · rcases head?_escapeChar d with ⟨-, selfD⟩ | ⟨-, backslashD⟩
    · simpa [selfC, selfD] using starts
    · rw [selfC, backslashD] at starts
      obtain rfl : c = '\\' := by simpa using starts
      exact absurd (.tail _ (.head _)) plainC
  · rcases head?_escapeChar d with ⟨plainD, selfD⟩ | ⟨escapedD, -⟩
    · rw [selfD, backslashC] at starts
      obtain rfl : '\\' = d := by simpa using starts
      exact absurd (.tail _ (.head _)) plainD
    · have facts := List.all_eq_true.mp escapeChar_of_mem c escapedC
      simp only [Bool.and_eq_true, List.all_eq_true] at facts
      have apart := facts.2 d escapedD
      simpa [List.isPrefixOf_iff_prefix.mpr h] using apart

theorem escapeChar_append_inj {c d : Char} {r r' : List Char}
    (h : escapeChar c ++ r = escapeChar d ++ r') : c = d ∧ r = r' := by
  have same : c = d := by
    rcases List.append_eq_append_iff.mp h with ⟨more, longer, -⟩ | ⟨more, longer, -⟩
    · exact eq_of_escapeChar_begins ⟨more, longer.symm⟩
    · exact (eq_of_escapeChar_begins ⟨more, longer.symm⟩).symm
  subst same
  exact ⟨rfl, List.append_cancel_left h⟩

/-- No character of a string is written as its end. -/
theorem escapeChar_append_ne (c : Char) (r r' : List Char) : escapeChar c ++ r ≠ '"' :: r' := by
  intro same
  have head := congrArg List.head? same
  rcases head?_escapeChar c with ⟨plain, self⟩ | ⟨-, backslash⟩
  · obtain rfl : c = '"' := by simpa [self] using head
    exact plain (.head _)
  · simp [List.head?_append, backslash] at head

theorem flatMap_escapeChar_append_inj {cs ds r r' : List Char}
    (h : cs.flatMap escapeChar ++ '"' :: r = ds.flatMap escapeChar ++ '"' :: r') :
    cs = ds ∧ r = r' := by
  induction cs generalizing ds with
  | nil =>
    cases ds with
    | nil => exact ⟨rfl, by simpa using h⟩
    | cons d ds =>
      rw [List.flatMap_cons, List.append_assoc] at h
      exact absurd h.symm (escapeChar_append_ne d _ _)
  | cons c cs ih =>
    cases ds with
    | nil =>
      rw [List.flatMap_cons, List.append_assoc] at h
      exact absurd h (escapeChar_append_ne c _ _)
    | cons d ds =>
      rw [List.flatMap_cons, List.flatMap_cons, List.append_assoc, List.append_assoc] at h
      obtain ⟨rfl, later⟩ := escapeChar_append_inj h
      obtain ⟨rfl, rest⟩ := ih later
      exact ⟨rfl, rest⟩

/-- A string ends at its closing quote. -/
theorem stringChars_append_inj {s t : String} {r r' : List Char}
    (h : stringChars s ++ r = stringChars t ++ r') : s = t ∧ r = r' := by
  simp only [stringChars, List.cons_append, List.append_assoc, List.cons.injEq, true_and,
    List.nil_append] at h
  obtain ⟨same, rest⟩ := flatMap_escapeChar_append_inj h
  exact ⟨String.toList_injective same, rest⟩

/-! ## Integers -/

/-- No digit follows. -/
def Ends (r : List Char) : Prop := ∀ c, r.head? = some c → c.isDigit = false

theorem ends_nil : Ends [] := by
  intro c h
  cases h

theorem ends_cons {c : Char} {r : List Char} (h : c.isDigit = false) : Ends (c :: r) := by
  intro d hd
  obtain rfl := Option.some.inj hd
  exact h

theorem takeWhile_toDigits {n : Nat} {r : List Char} (ends : Ends r) :
    (Nat.toDigits 10 n ++ r).takeWhile Char.isDigit = Nat.toDigits 10 n := by
  have digits : ∀ c ∈ Nat.toDigits 10 n, c.isDigit = true := fun c hc =>
    Nat.isDigit_of_mem_toDigits (by decide) (by decide) hc
  rw [List.takeWhile_append_of_pos digits]
  cases r with
  | nil => simp
  | cons c r => simp [ends c rfl]

theorem toDigits_append_inj {n m : Nat} {r r' : List Char} (ends : Ends r) (ends' : Ends r')
    (h : Nat.toDigits 10 n ++ r = Nat.toDigits 10 m ++ r') : n = m ∧ r = r' := by
  have same : Nat.toDigits 10 n = Nat.toDigits 10 m := by
    rw [← takeWhile_toDigits ends, h, takeWhile_toDigits ends']
  have number : n = m := by
    rw [← Nat.ofDigitChars_ten_toDigits (n := n), same, Nat.ofDigitChars_ten_toDigits]
  exact ⟨number, List.append_cancel_left (same ▸ h)⟩

/-- The first character of digits is no sign. -/
theorem toDigits_append_ne (n : Nat) (r r' : List Char) : Nat.toDigits 10 n ++ r ≠ '-' :: r' := by
  intro same
  obtain ⟨c, more, split⟩ := List.exists_cons_of_ne_nil (Nat.toDigits_ne_nil (n := n) (b := 10))
  have digit : c.isDigit = true :=
    Nat.isDigit_of_mem_toDigits (b := 10) (n := n) (by decide) (by decide) (by simp [split])
  rw [split, List.cons_append] at same
  obtain rfl := (List.cons.inj same).1
  exact absurd digit (by decide)

theorem intChars_append_inj {n m : Int} {r r' : List Char} (ends : Ends r) (ends' : Ends r')
    (h : (Number.Numeral.int n).chars ++ r = (Number.Numeral.int m).chars ++ r') :
    n = m ∧ r = r' := by
  simp only [Number.Numeral.chars, List.append_assoc] at h
  split at h
  case isTrue negative =>
    split at h
    case isTrue negative' =>
      obtain ⟨same, rest⟩ := toDigits_append_inj ends ends' (List.cons.inj h).2
      exact ⟨by omega, rest⟩
    case isFalse => exact absurd h.symm (toDigits_append_ne _ _ _)
  case isFalse positive =>
    split at h
    case isTrue => exact absurd h (toDigits_append_ne _ _ _)
    case isFalse positive' =>
      obtain ⟨same, rest⟩ := toDigits_append_inj ends ends' h
      exact ⟨by omega, rest⟩

/-! ## Kinds -/

/-- A character that shows what kind of value is written. -/
def kind : Json → Char
  | .null => 'n'
  | .bool true => 't'
  | .bool false => 'f'
  | .number _ => '0'
  | .text _ => '"'
  | .list _ => '['
  | .object _ => '\x7b'

/-- What a first character shows. A sign shows a number, as any digit does. -/
def kindOf (first : Char) : Char := if first == '-' || first.isDigit then '0' else first

theorem head?_chars {v : Json} (free : FloatFree v) :
    ∃ first rest, chars v = first :: rest ∧ kindOf first = kind v := by
  cases v with
  | null => exact ⟨'n', _, by rw [chars], rfl⟩
  | bool b => cases b <;> exact ⟨_, _, by rw [chars], rfl⟩
  | number n =>
    cases n with
    | float => exact free.elim
    | int n =>
      rw [chars, Number.Numeral.chars]
      split
      case isTrue => exact ⟨'-', _, rfl, rfl⟩
      case isFalse =>
        obtain ⟨c, more, split⟩ := List.exists_cons_of_ne_nil
          (Nat.toDigits_ne_nil (n := n.natAbs) (b := 10))
        have digit : c.isDigit = true :=
          Nat.isDigit_of_mem_toDigits (b := 10) (n := n.natAbs) (by decide) (by decide)
            (by simp [split])
        exact ⟨c, more, by rw [split]; rfl, by simp [kindOf, digit, kind]⟩
  | text s => exact ⟨'"', _, by rw [chars]; rfl, rfl⟩
  | list items => exact ⟨'[', _, by rw [chars], rfl⟩
  | object members => exact ⟨'\x7b', _, by rw [chars], rfl⟩

/-- The second value is of the kind of the first. -/
def SameKind : Json → Json → Prop
  | .null, w => w = .null
  | .bool b, w => w = .bool b
  | .number _, w => ∃ m, w = .number m
  | .text _, w => ∃ t, w = .text t
  | .list _, w => ∃ items, w = .list items
  | .object _, w => ∃ members, w = .object members

theorem sameKind_of_kind_eq {v w : Json} (h : kind v = kind w) : SameKind v w := by
  cases v with
  | bool b =>
    cases w with
    | bool b' => cases b <;> cases b' <;> simp [kind, SameKind] at h ⊢
    | _ => cases b <;> simp [kind] at h
  | _ =>
    cases w with
    | bool b' => cases b' <;> simp [kind] at h
    | _ => simp [kind, SameKind] at h ⊢

/-- Values that are written alike are of one kind. -/
theorem sameKind_of_chars_append {v w : Json} (free : FloatFree v) (free' : FloatFree w)
    {r r' : List Char} (h : chars v ++ r = chars w ++ r') : SameKind v w := by
  obtain ⟨first, rest, starts, shown⟩ := head?_chars free
  obtain ⟨first', rest', starts', shown'⟩ := head?_chars free'
  rw [starts, starts', List.cons_append, List.cons_append] at h
  refine sameKind_of_kind_eq ?_
  rw [← shown, ← shown', (List.cons.inj h).1]

/-- What shows another kind does not begin a value. -/
theorem chars_append_ne {v : Json} (free : FloatFree v) {c : Char} (other : kindOf c ≠ kind v)
    (r r' : List Char) : chars v ++ r ≠ c :: r' := by
  intro same
  obtain ⟨first, rest, starts, shown⟩ := head?_chars free
  rw [starts, List.cons_append] at same
  exact other ((List.cons.inj same).1 ▸ shown)

/-! ## Items and members -/

/-- What follows the first item of a list, with the bracket that closes it. -/
def itemTail : List Json → List Char
  | [] => [']']
  | v :: rest => ',' :: itemChars (v :: rest)

theorem itemChars_cons (v : Json) (rest : List Json) :
    itemChars (v :: rest) = chars v ++ itemTail rest := by
  cases rest <;> rw [itemChars] <;> rfl

/-- What follows the first member of an object, with the brace that closes it. -/
def memberTail : List (String × Json) → List Char
  | [] => ['\x7d']
  | m :: rest => ',' :: memberChars (m :: rest)

theorem memberChars_cons (k : String) (v : Json) (rest : List (String × Json)) :
    memberChars ((k, v) :: rest) = stringChars k ++ ':' :: (chars v ++ memberTail rest) := by
  cases rest <;> rw [memberChars] <;> rfl

theorem ends_itemTail (items : List Json) (r : List Char) : Ends (itemTail items ++ r) := by
  cases items <;> exact ends_cons rfl

theorem ends_memberTail (members : List (String × Json)) (r : List Char) :
    Ends (memberTail members ++ r) := by
  cases members <;> exact ends_cons rfl

theorem kind_mem (v : Json) : kind v ∈ ['n', 't', 'f', '0', '"', '[', '\x7b'] := by
  cases v with
  | bool b => cases b <;> simp [kind]
  | _ => simp [kind]

/-- No value is written like the end of a list. -/
theorem kindOf_bracket_ne (v : Json) : kindOf ']' ≠ kind v := by
  intro same
  exact absurd (same ▸ kind_mem v) (by decide)

/-! ## Values -/

mutual

/-- The written form of a value ends where it can be told to end, and no other value is written
like that. -/
theorem chars_append_inj : ∀ (v w : Json) {r r' : List Char}, FloatFree v → FloatFree w →
    Ends r → Ends r' → chars v ++ r = chars w ++ r' → v = w ∧ r = r'
  | .null, w, r, r', free, free', _, _, h => by
    obtain rfl : SameKind .null w := sameKind_of_chars_append free free' h
    exact ⟨rfl, List.append_cancel_left h⟩
  | .bool b, w, r, r', free, free', _, _, h => by
    obtain rfl : SameKind (.bool b) w := sameKind_of_chars_append free free' h
    exact ⟨rfl, List.append_cancel_left h⟩
  | .number (.float _), _, _, _, free, _, _, _, _ => free.elim
  | .number (.int n), w, r, r', free, free', ends, ends', h => by
    obtain ⟨m, rfl⟩ : SameKind (.number (.int n)) w := sameKind_of_chars_append free free' h
    cases m with
    | float => exact free'.elim
    | int m =>
      rw [chars, chars] at h
      obtain ⟨rfl, rest⟩ := intChars_append_inj ends ends' h
      exact ⟨rfl, rest⟩
  | .text s, w, r, r', free, free', _, _, h => by
    obtain ⟨t, rfl⟩ : SameKind (.text s) w := sameKind_of_chars_append free free' h
    rw [chars, chars] at h
    obtain ⟨rfl, rest⟩ := stringChars_append_inj h
    exact ⟨rfl, rest⟩
  | .list items, w, r, r', free, free', _, _, h => by
    obtain ⟨items', rfl⟩ : SameKind (.list items) w := sameKind_of_chars_append free free' h
    rw [chars, chars] at h
    obtain ⟨rfl, rest⟩ := itemChars_append_inj items items' free free' (List.cons.inj h).2
    exact ⟨rfl, rest⟩
  | .object members, w, r, r', free, free', _, _, h => by
    obtain ⟨members', rfl⟩ : SameKind (.object members) w := sameKind_of_chars_append free free' h
    rw [chars, chars] at h
    obtain ⟨rfl, rest⟩ := memberChars_append_inj members members' free free' (List.cons.inj h).2
    exact ⟨rfl, rest⟩

theorem itemChars_append_inj : ∀ (items items' : List Json) {r r' : List Char},
    ItemsFloatFree items → ItemsFloatFree items' →
    itemChars items ++ r = itemChars items' ++ r' → items = items' ∧ r = r'
  | [], [], r, r', _, _, h => ⟨rfl, List.append_cancel_left h⟩
  | [], w :: ws, r, r', _, free', h => by
    rw [itemChars, itemChars_cons, List.append_assoc] at h
    exact absurd h.symm (chars_append_ne free'.1 (kindOf_bracket_ne w) _ _)
  | v :: vs, [], r, r', free, _, h => by
    rw [itemChars, itemChars_cons, List.append_assoc] at h
    exact absurd h (chars_append_ne free.1 (kindOf_bracket_ne v) _ _)
  | v :: vs, w :: ws, r, r', free, free', h => by
    rw [itemChars_cons, itemChars_cons, List.append_assoc, List.append_assoc] at h
    obtain ⟨rfl, later⟩ := chars_append_inj v w free.1 free'.1 (ends_itemTail vs r)
      (ends_itemTail ws r') h
    obtain ⟨rfl, rest⟩ := itemTail_append_inj vs ws free.2 free'.2 later
    exact ⟨rfl, rest⟩

theorem itemTail_append_inj : ∀ (items items' : List Json) {r r' : List Char},
    ItemsFloatFree items → ItemsFloatFree items' →
    itemTail items ++ r = itemTail items' ++ r' → items = items' ∧ r = r'
  | [], [], r, r', _, _, h => ⟨rfl, List.append_cancel_left h⟩
  | [], w :: ws, r, r', _, _, h => absurd (List.cons.inj h).1 (by decide)
  | v :: vs, [], r, r', _, _, h => absurd (List.cons.inj h).1 (by decide)
  | v :: vs, w :: ws, r, r', free, free', h =>
    itemChars_append_inj (v :: vs) (w :: ws) free free' (List.cons.inj h).2

theorem memberChars_append_inj : ∀ (members members' : List (String × Json)) {r r' : List Char},
    MembersFloatFree members → MembersFloatFree members' →
    memberChars members ++ r = memberChars members' ++ r' → members = members' ∧ r = r'
  | [], [], r, r', _, _, h => ⟨rfl, List.append_cancel_left h⟩
  | [], (k, w) :: ws, r, r', _, _, h => by
    rw [memberChars, memberChars_cons] at h
    exact absurd (List.cons.inj h).1 (by decide)
  | (k, v) :: vs, [], r, r', _, _, h => by
    rw [memberChars, memberChars_cons] at h
    exact absurd (List.cons.inj h).1 (by decide)
  | (k, v) :: vs, (k', w) :: ws, r, r', free, free', h => by
    rw [memberChars_cons, memberChars_cons, List.append_assoc, List.append_assoc] at h
    obtain ⟨rfl, behind⟩ := stringChars_append_inj h
    have value : chars v ++ (memberTail vs ++ r) = chars w ++ (memberTail ws ++ r') := by
      simpa using behind
    obtain ⟨rfl, later⟩ := chars_append_inj v w free.1 free'.1 (ends_memberTail vs r)
      (ends_memberTail ws r') value
    obtain ⟨rfl, rest⟩ := memberTail_append_inj vs ws free.2 free'.2 later
    exact ⟨rfl, rest⟩

theorem memberTail_append_inj : ∀ (members members' : List (String × Json)) {r r' : List Char},
    MembersFloatFree members → MembersFloatFree members' →
    memberTail members ++ r = memberTail members' ++ r' → members = members' ∧ r = r'
  | [], [], r, r', _, _, h => ⟨rfl, List.append_cancel_left h⟩
  | [], w :: ws, r, r', _, _, h => absurd (List.cons.inj h).1 (by decide)
  | v :: vs, [], r, r', _, _, h => absurd (List.cons.inj h).1 (by decide)
  | v :: vs, w :: ws, r, r', free, free', h =>
    memberChars_append_inj (v :: vs) (w :: ws) free free' (List.cons.inj h).2

end

/-- Values without floating point numbers that are written in the same bytes are the same. -/
theorem toBytes_injective {v w : Json} (free : FloatFree v) (free' : FloatFree w)
    (h : v.toBytes = w.toBytes) : v = w := by
  have same : chars v ++ [] = chars w ++ [] := by
    rw [List.append_nil, List.append_nil]
    exact Text.encodeChars_injective h
  exact (chars_append_inj v w free free' ends_nil ends_nil same).1

end Json

end HostTrust
