/-
HostTrust.Proofs.MarkupTokens — the tokens of markup, piece by piece.

A text is written as a row of pieces: tags, blanks, character data and
instructions. `Cuts` says of a piece which tokens it is cut into, and which
elements are open in front of it and behind it, whatever follows. Pieces that
follow each other are cut one after the other (`Cuts.append`), and a text that
is one such row is cut as a whole (`tokens_ofList`).

Character data is the one piece whose end depends on what follows: it goes on
up to the next tag, so it is cut together with that (`Cuts.data`).
-/
import HostTrust.Proofs.Markup
import HostTrust.Text.Blank

namespace HostTrust.Xml

variable {unclosed middle after : List (List Char)} {cs cs' : List Char} {ts ts' : List Token}

/-- Where `unclosed` are the open elements, these characters are cut into these tokens, and
`after` are the open elements behind them. -/
structure Cuts (unclosed : List (List Char)) (cs : List Char) (ts : List Token)
    (after : List (List Char)) : Prop where
  reads : ∀ steps rest, tokensFrom (steps + ts.length) unclosed (cs ++ rest) =
    ts ++ tokensFrom steps after rest
  short : ts.length ≤ cs.length

namespace Cuts

theorem nil : Cuts unclosed [] [] unclosed := ⟨fun _ _ => rfl, Nat.le_refl 0⟩

/-- Pieces that follow each other are cut one after the other. -/
theorem append (h : Cuts unclosed cs ts middle) (h' : Cuts middle cs' ts' after) :
    Cuts unclosed (cs ++ cs') (ts ++ ts') after := by
  constructor
  · intro steps rest
    have count : steps + (ts ++ ts').length = (steps + ts'.length) + ts.length := by
      rw [List.length_append]
      omega
    rw [count, List.append_assoc, h.reads, h'.reads, List.append_assoc]
  · rw [List.length_append, List.length_append]
    exact Nat.add_le_add h.short h'.short

/-- Blanks in front of a piece do not count. -/
theorem gap (g : Gap) : Cuts unclosed g.chars [] unclosed := by
  constructor
  · intro steps rest
    cases steps with
    | zero => rfl
    | succ steps => simp only [List.length_nil, Nat.add_zero, tokensFrom, g.dropWhile_append,
        List.nil_append]
  · exact Nat.zero_le _

/-- One step reads one piece. -/
theorem of_step {t : Token} (step : ∀ steps rest,
    tokensFrom (steps + 1) unclosed (cs ++ rest) = t :: tokensFrom steps after rest)
    (written : cs ≠ []) : Cuts unclosed cs [t] after where
  reads := step
  short := List.length_pos_iff.mpr written

end Cuts

/-- The tokens of a text that is one row of pieces. -/
theorem tokens_ofList (h : Cuts [] cs ts after) (unmarked : cs.head? ≠ some '\ufeff') :
    tokens (String.ofList cs) = ts := by
  obtain ⟨steps, enough⟩ : ∃ n, cs.length + 1 = (n + 1) + ts.length :=
    ⟨cs.length - ts.length, by have := h.short; omega⟩
  have all : tokensFrom (cs.length + 1) [] cs = ts := by
    have read := h.reads (steps + 1) []
    rw [List.append_nil, ← enough] at read
    simpa [tokensFrom] using read
  rw [tokens, String.toList_ofList]
  split
  case h_1 rest => simp at unmarked
  case h_2 => exact all

/-! ## Ends of pieces -/

/-- Blanks at the end are dropped. -/
theorem Gap.strip_append (g : Gap) (ink : ∀ c, cs.getLast? = some c → isSpace c = false) :
    ((cs ++ g.chars).reverse.dropWhile isSpace).reverse = cs := by
  rw [List.reverse_append,
    List.dropWhile_append_of_pos fun c hc => g.isSpace_of_mem (List.mem_reverse.mp hc),
    Text.dropWhile_eq_self, List.reverse_reverse]
  simpa [List.head?_reverse] using ink

theorem upTo_append {isDone : List Char → Bool} (inside : ∀ c ∈ cs, c ≠ '>')
    (latest rest : List Char) :
    upTo isDone latest (cs ++ rest) = upTo isDone (cs.reverse ++ latest) rest := by
  induction cs generalizing latest with
  | nil => rfl
  | cons c cs ih =>
    rw [List.cons_append, upTo, if_neg fun done => inside c (.head _) done.1,
      ih fun d hd => inside d (.tail _ hd), List.reverse_cons, List.append_assoc]
    rfl

/-! ## Tags -/

section Tags

variable {attributes : List (String × String)} (s : TagStyle attributes) {name : String}

/-- What begins like a tag is read as a tag. -/
theorem tokensFrom_tag {first : Char} (other : first ∉ ['!', '?', '/']) (steps : Nat)
    (more : List Char) : tokensFrom (steps + 1) unclosed ('<' :: first :: more) =
      match tagContent none [] (first :: more) with
      | some (content, rest) =>
        if content.getLast? = some '/' then
          .lone (tagOf content.dropLast) :: tokensFrom steps unclosed rest
        else .opening (tagOf content) :: tokensFrom steps ((tagOf content).name :: unclosed) rest
      | none => [.broken] := by
  simp only [List.mem_cons, List.not_mem_nil, or_false, not_or] at other
  obtain ⟨notBang, notInstruction, notEnd⟩ := other
  have ink : ('<' :: first :: more).dropWhile isSpace = '<' :: first :: more := rfl
  rw [tokensFrom, ink]
  split
  case h_1 h => cases h
  case h_2 h => exact absurd (List.cons.inj (List.cons.inj h).2).1 notBang
  case h_3 h => exact absurd (List.cons.inj (List.cons.inj h).2).1 notInstruction
  case h_4 h => exact absurd (List.cons.inj (List.cons.inj h).2).1 notEnd
  case h_5 h =>
    obtain rfl := (List.cons.inj h).2
    rfl
  case h_6 h => exact absurd rfl (h _)

/-- The first character of a name is no sign. -/
theorem exists_content_eq_cons (isName : IsName name.toList) :
    ∃ first more, s.content name = first :: more ∧ first ∉ ['!', '?', '/'] := by
  obtain ⟨first, more, split⟩ := exists_qualified_eq_cons (q := s.qualifier) isName
  have mem : first ∈ qualified s.qualifier name.toList := split ▸ .head _
  have among : ['!', '?', '/'].all signs.contains = true := rfl
  refine ⟨first, more ++ s.attributeChars, by rw [TagStyle.content, split]; rfl, fun sign => ?_⟩
  have isSign := List.all_eq_true.mp among first sign
  exact not_mem_signs_of_mem_qualified isName mem (by simpa using isSign)

namespace Cuts

theorem opening (isName : IsName name.toList) (named : Named attributes) :
    Cuts unclosed ('<' :: (s.content name ++ ['>'])) [.opening (s.tag name)]
      ((s.tag name).name :: unclosed) := by
  obtain ⟨first, more, split, other⟩ := exists_content_eq_cons s isName
  refine .of_step (fun steps rest => ?_) (by simp)
  have read := s.tagContent_content isName named rest
  have open_tag := (s.passes_content isName named).last
  have tag := s.tagOf_content isName
  rw [split] at read open_tag tag ⊢
  have written : '<' :: (first :: more ++ ['>']) ++ rest =
      '<' :: first :: (more ++ '>' :: rest) := by simp
  rw [written, tokensFrom_tag other, ← List.cons_append, read]
  simp only [open_tag, if_false, tag]

theorem lone (isName : IsName name.toList) (named : Named attributes) :
    Cuts unclosed ('<' :: (s.content name ++ ['/', '>'])) [.lone (s.tag name)] unclosed := by
  obtain ⟨first, more, split, other⟩ := exists_content_eq_cons s isName
  refine .of_step (fun steps rest => ?_) (by simp)
  have read := s.tagContent_content_lone isName named rest
  have tag := s.tagOf_content isName
  rw [split] at read tag ⊢
  have written : '<' :: (first :: more ++ ['/', '>']) ++ rest =
      '<' :: first :: (more ++ '/' :: '>' :: rest) := by simp
  rw [written, tokensFrom_tag other, ← List.cons_append, read]
  simp only [List.getLast?_concat, List.dropLast_concat, if_true, tag]

/-- An end tag closes the element that was opened last. -/
theorem closing {q : Option Qualifier} (isName : IsName name.toList) (tail : Gap) :
    Cuts (qualified q name.toList :: after)
      ('<' :: '/' :: (qualified q name.toList ++ tail.chars ++ ['>'])) [.closing] after := by
  refine .of_step (fun steps rest => ?_) (by simp)
  have inside : ∀ c ∈ qualified q name.toList ++ tail.chars, c ≠ '>' := by
    intro c hc
    rcases List.mem_append.mp hc with hc | hc
    · rintro rfl
      exact not_mem_signs_of_mem_qualified isName hc (by decide)
    · exact tail.ne_of_mem hc rfl
  have read : upTo (fun _ => true) [] (qualified q name.toList ++ tail.chars ++ ['>'] ++ rest) =
      some (qualified q name.toList ++ tail.chars, rest) := by
    rw [List.append_assoc, upTo_append inside]
    simp [upTo]
  have named : closingName (qualified q name.toList ++ tail.chars) = qualified q name.toList := by
    obtain ⟨first, more, split⟩ := exists_qualified_eq_cons (q := q) isName
    have ink : ∀ c, (qualified q name.toList).getLast? = some c → isSpace c = false := fun c hc =>
      isSpace_of_mem_qualified isName (List.mem_of_mem_getLast? hc)
    rw [closingName, tail.strip_append ink, split]
    rfl
  have ink : ∀ more, ('<' :: '/' :: more).dropWhile isSpace = '<' :: '/' :: more := fun _ => rfl
  rw [List.cons_append, List.cons_append, tokensFrom, ink]
  simp only [read, named, if_true]

end Cuts

end Tags

/-! ## Character data -/

/-- Escaped, a character is itself or begins and ends with the signs of a reference. -/
theorem escapeChar_ends (c : Char) : escapeChar c = [c] ∨
    (escapeChar c).head? = some '&' ∧ (escapeChar c).getLast? = some ';' := by
  unfold escapeChar
  split
  case h_6 => exact .inl rfl
  all_goals exact .inr (by decide)

theorem escape_ne_nil (some_text : cs ≠ []) : escape cs ≠ [] := by
  obtain ⟨c, others, rfl⟩ := List.exists_cons_of_ne_nil some_text
  intro empty
  have nothing : escapeChar c = [] := (List.append_eq_nil_iff.mp empty).1
  rcases escapeChar_ends c with plain | ⟨first, -⟩
  · rw [plain] at nothing
    cases nothing
  · rw [nothing] at first
    cases first

theorem isSpace_of_head?_escape (ink : ∀ c, cs.head? = some c → isSpace c = false) :
    ∀ c, (escape cs).head? = some c → isSpace c = false := by
  intro c hc
  cases cs with
  | nil => cases hc
  | cons d cs =>
    rw [escape, List.flatMap_cons, List.head?_append] at hc
    rcases escapeChar_ends d with plain | ⟨first, -⟩
    · rw [plain] at hc
      exact ink c hc
    · rw [first] at hc
      obtain rfl := Option.some.inj hc
      rfl

theorem isSpace_of_getLast?_escape (ink : ∀ c, cs.getLast? = some c → isSpace c = false) :
    ∀ c, (escape cs).getLast? = some c → isSpace c = false := by
  intro c hc
  rcases List.eq_nil_or_concat' cs with rfl | ⟨front, d, rfl⟩
  · cases hc
  · rw [escape, List.flatMap_append, List.flatMap_singleton, List.getLast?_append] at hc
    rcases escapeChar_ends d with plain | ⟨-, last⟩
    · rw [plain] at hc
      exact ink c (by simpa using hc)
    · rw [last] at hc
      obtain rfl := Option.some.inj hc
      rfl

/-- What does not begin like markup is read up to the next markup. -/
theorem tokensFrom_data {first : Char} (ink : isSpace first = false) (other : first ≠ '<')
    (g : Gap) (steps : Nat) (more : List Char) :
    tokensFrom (steps + 1) unclosed (g.chars ++ first :: more) =
      .data ((((first :: more).takeWhile (· != '<')).reverse.dropWhile isSpace).reverse) ::
        tokensFrom steps unclosed ((first :: more).dropWhile (· != '<')) := by
  have first_ink : (g.chars ++ first :: more).dropWhile isSpace = first :: more := by
    rw [g.dropWhile_append, List.dropWhile_cons, if_neg (by simp [ink])]
  rw [tokensFrom, first_ink]
  split
  case h_1 h => cases h
  case h_6 => rfl
  all_goals
    rename_i h
    exact absurd (List.cons.inj h).1 other

/-- Character data with blanks around it is one token. It ends where the next tag begins. -/
theorem Cuts.data (some_text : cs ≠ [])
    (first : ∀ c, cs.head? = some c → isSpace c = false)
    (last : ∀ c, cs.getLast? = some c → isSpace c = false) (before behind : Gap)
    {more : List Char} (h : Cuts unclosed ('<' :: more) ts after) :
    Cuts unclosed (before.chars ++ (escape cs ++ (behind.chars ++ '<' :: more)))
      (.data (escape cs) :: ts) after := by
  have inside : ∀ c ∈ escape cs ++ behind.chars, (c != '<') = true := by
    intro c hc
    rcases List.mem_append.mp hc with hc | hc
    · have no_sign := not_mem_endSigns_of_mem_escape hc
      simpa using fun same : c = '<' => no_sign (by rw [same]; decide)
    · simpa using behind.ne_of_mem hc rfl
  obtain ⟨c, others, split⟩ := List.exists_cons_of_ne_nil (escape_ne_nil some_text)
  have read : ∀ steps rest, tokensFrom (steps + 1) unclosed
      (before.chars ++ (escape cs ++ (behind.chars ++ '<' :: more)) ++ rest) =
        .data (escape cs) :: tokensFrom steps unclosed ('<' :: more ++ rest) := by
    intro steps rest
    have written : before.chars ++ (escape cs ++ (behind.chars ++ '<' :: more)) ++ rest =
        before.chars ++ c :: (others ++ (behind.chars ++ '<' :: (more ++ rest))) := by simp [split]
    have here : c :: (others ++ (behind.chars ++ '<' :: (more ++ rest))) =
        escape cs ++ behind.chars ++ '<' :: (more ++ rest) := by simp [split]
    have starts : isSpace c = false := isSpace_of_head?_escape first c (by rw [split]; rfl)
    have mem : c ∈ escape cs := split ▸ .head _
    have no_sign : c ≠ '<' := by
      rintro rfl
      exact not_mem_endSigns_of_mem_escape mem (by decide)
    have stops : ('<' :: (more ++ rest)).takeWhile (· != '<') = [] := rfl
    rw [written, tokensFrom_data starts no_sign, here, List.takeWhile_append_of_pos inside,
      List.dropWhile_append_of_pos inside, stops, List.append_nil,
      behind.strip_append (isSpace_of_getLast?_escape last)]
    rfl
  constructor
  · intro steps rest
    rw [List.length_cons, ← Nat.add_assoc, read, h.reads]
    rfl
  · have short := h.short
    simp only [List.length_append, List.length_cons, split] at short ⊢
    omega

/-! ## Instructions -/

/-- An instruction is passed over. -/
theorem Cuts.instruction {content : List Char} (inside : '>' ∉ content) :
    Cuts unclosed ('<' :: '?' :: (content ++ ['?', '>'])) [.aside] unclosed := by
  refine .of_step (fun steps rest => ?_) (by simp)
  have front : ∀ c ∈ '?' :: content ++ ['?'], c ≠ '>' := by
    intro c hc
    rcases List.mem_append.mp hc with hc | hc
    · rcases List.mem_cons.mp hc with rfl | hc
      · decide
      · exact fun same => inside (same ▸ hc)
    · rw [List.mem_singleton.mp hc]
      decide
  have read : Xml.instruction ('?' :: (content ++ '?' :: '>' :: rest)) = some rest := by
    have shape : '?' :: (content ++ '?' :: '>' :: rest) =
        '?' :: content ++ ['?'] ++ '>' :: rest := by simp
    rw [shape, Xml.instruction, upTo_append front]
    simp [upTo, instructionDone]
  have written : '<' :: '?' :: (content ++ ['?', '>']) ++ rest =
      '<' :: '?' :: (content ++ '?' :: '>' :: rest) := by simp
  have ink : ∀ more, ('<' :: '?' :: more).dropWhile isSpace = '<' :: '?' :: more := fun _ => rfl
  rw [written, tokensFrom, ink]
  simp only [read]

/-! ## Elements -/

/-- How the content of an element with a text is written: not at all, if there is no text, or
between a start tag and an end tag, with blanks around the text and in the end tag. -/
inductive BodyStyle (text : String) where
  | lone (empty : text = "")
  | pair (before behind tail : Gap)

/-- How an element with some attributes and a text is written. -/
structure ElementStyle (attributes : List (String × String)) (text : String) where
  tag : TagStyle attributes
  body : BodyStyle text

namespace ElementStyle

variable {attributes : List (String × String)} {text : String} (s : ElementStyle attributes text)
  {name : String}

def chars (name : String) : List Char :=
  match s.body with
  | .lone _ => '<' :: (s.tag.content name ++ ['/', '>'])
  | .pair before behind tail =>
    '<' :: (s.tag.content name ++ ['>']) ++
      (before.chars ++ (escape text.toList ++ (behind.chars ++
        '<' :: '/' :: (qualified s.tag.qualifier name.toList ++ tail.chars ++ ['>']))))

def tokens (name : String) : List Token :=
  match s.body with
  | .lone _ => [.lone (s.tag.tag name)]
  | .pair .. =>
    [.opening (s.tag.tag name)] ++
      ((if text = "" then [] else [.data (escape text.toList)]) ++ [.closing])

/-- The text has no blanks at its ends. -/
theorem isSpace_of_trimmed (trimmed : Text.trim text = text) :
    (∀ c, text.toList.head? = some c → isSpace c = false) ∧
      ∀ c, text.toList.getLast? = some c → isSpace c = false := by
  have blank : ∀ c, Text.isBlank c = false → isSpace c = false := by
    intro c ink
    cases space : isSpace c with
    | false => rfl
    | true =>
      simp only [isSpace, Bool.or_eq_true, beq_iff_eq] at space
      rcases space with ((rfl | rfl) | rfl) | rfl <;> simp [Text.isBlank] at ink
  have ends : text.toList = Text.trimChars text.toList := by
    conv_lhs => rw [← trimmed, Text.trim, String.toList_ofList]
  rw [ends]
  exact ⟨fun c hc => blank c (Text.head?_trimChars _ c hc),
    fun c hc => blank c (Text.getLast?_dropBlankEnd _ c hc)⟩

/-- An element leaves the elements open that were open in front of it. -/
theorem cuts (isName : IsName name.toList) (named : Named attributes)
    (trimmed : Text.trim text = text) :
    Cuts unclosed (s.chars name) (s.tokens name) unclosed := by
  unfold chars tokens
  cases s.body with
  | lone => exact Cuts.lone s.tag isName named
  | pair before behind tail =>
    refine (Cuts.opening s.tag isName named).append ?_
    have ends : Cuts ((s.tag.tag name).name :: unclosed) _ [.closing] unclosed :=
      Cuts.closing isName tail
    split
    case isTrue empty =>
      subst empty
      exact (Cuts.gap before).append ((Cuts.gap behind).append ends)
    case isFalse some_text =>
      obtain ⟨first, last⟩ := isSpace_of_trimmed trimmed
      refine Cuts.data ?_ first last before behind ends
      exact fun empty => some_text (String.toList_eq_nil_iff.mp empty)

end ElementStyle

end HostTrust.Xml
