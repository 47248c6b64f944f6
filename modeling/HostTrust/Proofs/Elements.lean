/-
HostTrust.Proofs.Elements — the elements of an XML text.

The tokens of a text are those of elements that stand in one another
(`Content`), except that elements may be left open at the end of the text
(`Document`). What a reader of XML asks for is read off these trees: the
elements with what is inside them, the text of an element, the tags that
stand outside of certain elements.

Tokens are put together from the last one on: `Nesting` is what
follows a place in the text, in which the end tags of elements that begin
before the place have no partners yet. A list of tokens has at most one document
(`Document.of?_eq_some_iff`), and a text has one exactly if it is XML throughout
(`document?_eq_none_iff`).
-/
import HostTrust.Xml.Attribute
import Mathlib.Data.List.Basic

namespace HostTrust.Xml

/-! ## Elements in one another -/

/-- What stands between two tags: elements with what is inside them, tags of elements without
content, character data and other markup, in order. -/
inductive Content where
  | nil
  | element (tag : Tag) (inside rest : Content)
  | lone (tag : Tag) (rest : Content)
  | data (raw : List Char) (rest : Content)
  | aside (rest : Content)
  deriving DecidableEq, Repr

namespace Content

def tokens : Content → List Token
  | .nil => []
  | .element tag inside rest => .opening tag :: (inside.tokens ++ .closing :: rest.tokens)
  | .lone tag rest => .lone tag :: rest.tokens
  | .data raw rest => .data raw :: rest.tokens
  | .aside rest => .aside :: rest.tokens

end Content

/-- An element from its tag to its end. -/
structure Element where
  tag : Tag
  inside : Content
  deriving DecidableEq, Repr

namespace Content

/-- All elements, at any depth, in the order in which they end. -/
def elements : Content → List Element
  | .nil => []
  | .element tag inside rest => inside.elements ++ ⟨tag, inside⟩ :: rest.elements
  | .lone tag rest => ⟨tag, .nil⟩ :: rest.elements
  | .data _ rest | .aside rest => rest.elements

/-- Some element here has a start tag and an end tag. -/
def hasPair : Content → Bool
  | .nil => false
  | .element _ _ _ => true
  | .lone _ rest | .data _ rest | .aside rest => rest.hasPair

/-- The runs of character data that stand here and not in an element. -/
def texts : Content → List (List Char)
  | .nil => []
  | .data raw rest => raw :: rest.texts
  | .element _ _ rest | .lone _ rest | .aside rest => rest.texts

/-- The tags, at any depth, that do not stand inside of an element whose tag is so. -/
def tagsOutside (p : Tag → Bool) : Content → List Tag
  | .nil => []
  | .element tag inside rest =>
    tag :: ((if p tag then [] else inside.tagsOutside p) ++ rest.tagsOutside p)
  | .lone tag rest => tag :: rest.tagsOutside p
  | .data _ rest | .aside rest => rest.tagsOutside p

end Content

/-- The content of a text, up to the first element that is left open, and for each element that
is left open what stands directly in it up to the next one. -/
structure Document where
  content : Content
  unclosed : List (Tag × Content)
  deriving DecidableEq, Repr

/-- The tokens of elements that are left open. -/
def unclosedTokens (unclosed : List (Tag × Content)) : List Token :=
  unclosed.flatMap fun e => .opening e.1 :: e.2.tokens

/-- The tag of an element that a token begins. -/
def Token.tag? : Token → Option Tag
  | .opening tag | .lone tag => some tag
  | .closing | .data _ | .aside | .broken => none

namespace Document

def tokens (d : Document) : List Token := d.content.tokens ++ unclosedTokens d.unclosed

/-- The tags of all elements, those that are left open included. -/
def tags (d : Document) : List Tag := d.tokens.filterMap Token.tag?

/-- All elements that end, at any depth, in the order in which they end. -/
def elements (d : Document) : List Element :=
  d.content.elements ++ d.unclosed.flatMap fun e => e.2.elements

end Document

theorem Content.tag_mem_of_mem_elements {c : Content} {e : Element} (h : e ∈ c.elements) :
    e.tag ∈ c.tokens.filterMap Token.tag? := by
  induction c with
  | nil => cases h
  | element tag inside rest inside_ih rest_ih =>
    simp only [tokens, Token.tag?, List.filterMap_cons, List.filterMap_append]
    rcases List.mem_append.mp h with h | h
    · exact .tail _ (List.mem_append_left _ (inside_ih h))
    · rcases List.mem_cons.mp h with rfl | h
      · exact .head _
      · exact .tail _ (List.mem_append_right _ (rest_ih h))
  | lone tag rest ih =>
    rcases List.mem_cons.mp h with rfl | h
    · exact .head _
    · exact .tail _ (ih h)
  | data raw rest ih | aside rest ih => exact ih h

theorem Document.tag_mem_of_mem_elements {d : Document} {e : Element} (h : e ∈ d.elements) :
    e.tag ∈ d.tags := by
  rw [tags, tokens, List.filterMap_append, unclosedTokens, List.filterMap_flatMap]
  rcases List.mem_append.mp h with h | h
  · exact List.mem_append_left _ (Content.tag_mem_of_mem_elements h)
  · obtain ⟨open_element, found, inside⟩ := List.mem_flatMap.mp h
    refine List.mem_append_right _ (List.mem_flatMap.mpr ⟨open_element, found, ?_⟩)
    exact .tail _ (Content.tag_mem_of_mem_elements inside)

/-! ## Tokens put together -/

/-- What follows a place in a text: the content up to the end of the element around the place,
what stands after that end tag and after those of further elements around the place, and the
elements that are left open. -/
structure Nesting where
  content : Content
  outer : List Content
  unclosed : List (Tag × Content)
  deriving DecidableEq, Repr

namespace Nesting

/-- The end of a text. -/
def empty : Nesting := ⟨.nil, [], []⟩

/-- What follows a place in front of a token. -/
def cons? : Token → Nesting → Option Nesting
  | .opening tag, ⟨inside, rest :: outer, unclosed⟩ =>
    some ⟨.element tag inside rest, outer, unclosed⟩
  | .opening tag, ⟨inside, [], unclosed⟩ => some ⟨.nil, [], (tag, inside) :: unclosed⟩
  | .closing, ⟨rest, outer, unclosed⟩ => some ⟨.nil, rest :: outer, unclosed⟩
  | .lone tag, n => some { n with content := .lone tag n.content }
  | .data raw, n => some { n with content := .data raw n.content }
  | .aside, n => some { n with content := .aside n.content }
  | .broken, _ => none

/-- What follows the place in front of some tokens, if they are XML. -/
def of? (ts : List Token) : Option Nesting := ts.foldr (fun t n => n.bind (cons? t)) (some empty)

def tokens (n : Nesting) : List Token :=
  n.content.tokens ++ n.outer.flatMap (fun c => .closing :: c.tokens) ++ unclosedTokens n.unclosed

@[simp] theorem of?_nil : of? [] = some empty := rfl

@[simp] theorem of?_cons (t : Token) (ts : List Token) : of? (t :: ts) = (of? ts).bind (cons? t) :=
  rfl

/-- No token is lost, and none is added. -/
theorem tokens_cons? {t : Token} {n n' : Nesting} (h : cons? t n = some n') :
    n'.tokens = t :: n.tokens := by
  obtain ⟨content, outer, unclosed⟩ := n
  cases t with
  | opening tag =>
    cases outer <;> obtain rfl := Option.some.inj h <;>
      simp [tokens, Content.tokens, unclosedTokens]
  | broken => cases h
  | closing | lone | data | aside =>
    obtain rfl := Option.some.inj h
    simp [tokens, Content.tokens]

theorem tokens_of? {ts : List Token} {n : Nesting} (h : of? ts = some n) : n.tokens = ts := by
  induction ts generalizing n with
  | nil =>
    obtain rfl := Option.some.inj h
    rfl
  | cons t ts ih =>
    obtain ⟨later, hlater, here⟩ := Option.bind_eq_some_iff.mp h
    rw [tokens_cons? here, ih hlater]

/-- Content is found again in front of what does not continue it. -/
theorem of?_append (c : Content) {ts : List Token} {outer : List Content}
    {unclosed : List (Tag × Content)} (h : of? ts = some ⟨.nil, outer, unclosed⟩) :
    of? (c.tokens ++ ts) = some ⟨c, outer, unclosed⟩ := by
  induction c generalizing ts outer with
  | nil => exact h
  | element tag inside rest inside_ih rest_ih =>
    have closed : of? (.closing :: (rest.tokens ++ ts)) = some ⟨.nil, rest :: outer, unclosed⟩ := by
      simp [rest_ih h, cons?]
    have opened : of? (inside.tokens ++ .closing :: (rest.tokens ++ ts)) =
        some ⟨inside, rest :: outer, unclosed⟩ := inside_ih closed
    simp [Content.tokens, opened, cons?]
  | lone | data | aside => simp_all [Content.tokens, cons?]

theorem of?_unclosedTokens (unclosed : List (Tag × Content)) :
    of? (unclosedTokens unclosed) = some ⟨.nil, [], unclosed⟩ := by
  induction unclosed with
  | nil => rfl
  | cons e rest ih =>
    have inside : of? (e.2.tokens ++ unclosedTokens rest) = some ⟨e.2, [], rest⟩ :=
      of?_append e.2 ih
    show of? (.opening e.1 :: (e.2.tokens ++ unclosedTokens rest)) = _
    simp [inside, cons?]

/-- Only a place where the text stops being XML is in the way. -/
theorem of?_eq_none_iff {ts : List Token} : of? ts = none ↔ .broken ∈ ts := by
  induction ts with
  | nil => simp
  | cons t ts ih =>
    cases later : of? ts with
    | none => simpa [later] using .inr (ih.mp later)
    | some n =>
      have sound : Token.broken ∉ ts := fun h => by simp [ih.mpr h] at later
      obtain ⟨content, outer, unclosed⟩ := n
      cases t <;> cases outer <;> simp [later, sound, cons?]

end Nesting

namespace Document

/-- The document that has these tokens. -/
def of? (ts : List Token) : Option Document :=
  (Nesting.of? ts).bind fun n => if n.outer = [] then some ⟨n.content, n.unclosed⟩ else none

theorem of?_eq_some_iff {ts : List Token} {d : Document} : of? ts = some d ↔ ts = d.tokens := by
  constructor
  · intro h
    obtain ⟨n, hn, here⟩ := Option.bind_eq_some_iff.mp h
    obtain ⟨top, rfl⟩ : n.outer = [] ∧ ⟨n.content, n.unclosed⟩ = d := by simpa using here
    rw [← Nesting.tokens_of? hn]
    simp [Nesting.tokens, tokens, top]
  · rintro rfl
    have found := Nesting.of?_append d.content (Nesting.of?_unclosedTokens d.unclosed)
    simp [of?, tokens, found]

end Document

/-! ## Texts -/

/-- The number of end tags without partners in front of a token, from that behind it. -/
def Token.unmatched : Token → Nat → Nat
  | .closing, n => n + 1
  | .opening _, n => n - 1
  | _, n => n

theorem Nesting.exists_of_of?_cons {t : Token} {ts : List Token} {n : Nesting}
    (h : Nesting.of? (t :: ts) = some n) :
    ∃ later, Nesting.of? ts = some later ∧ n.outer.length = t.unmatched later.outer.length := by
  obtain ⟨later, hlater, here⟩ := Option.bind_eq_some_iff.mp h
  refine ⟨later, hlater, ?_⟩
  obtain ⟨content, outer, unclosed⟩ := later
  cases t with
  | opening tag => cases outer <;> obtain rfl := Option.some.inj here <;> rfl
  | broken => cases here
  | closing | lone | data | aside =>
    obtain rfl := Option.some.inj here
    rfl

/-- In the tokens of a text, no more end tags lack a partner than elements are open. -/
theorem length_outer_le {steps : Nat} {unclosed : List (List Char)} {cs : List Char} {n : Nesting}
    (h : Nesting.of? (tokensFrom steps unclosed cs) = some n) :
    n.outer.length ≤ unclosed.length := by
  fun_induction tokensFrom steps unclosed cs generalizing n
  case case1 | case4 | case6 | case8 | case9 | case12 => cases h
  case case2 =>
    obtain rfl := Option.some.inj h
    exact Nat.zero_le _
  case case3 ih | case5 ih | case10 ih | case13 ih =>
    obtain ⟨later, hlater, same⟩ := Nesting.exists_of_of?_cons h
    rw [same]
    exact ih hlater
  case case7 ih =>
    obtain ⟨later, hlater, more⟩ := Nesting.exists_of_of?_cons h
    rw [more]
    exact Nat.succ_le_succ (ih hlater)
  case case11 ih =>
    obtain ⟨later, hlater, less⟩ := Nesting.exists_of_of?_cons h
    rw [less]
    exact Nat.sub_le_of_le_add (ih hlater)

/-- The document that a text writes, if it is XML. -/
def document? (s : String) : Option Document := Document.of? (tokens s)

theorem document?_eq_some_iff {s : String} {d : Document} :
    document? s = some d ↔ tokens s = d.tokens :=
  Document.of?_eq_some_iff

/-- A text has a document unless it stops being XML somewhere. -/
theorem document?_eq_none_iff {s : String} : document? s = none ↔ .broken ∈ tokens s := by
  rw [← Nesting.of?_eq_none_iff, document?, Document.of?, Option.bind_eq_none_iff]
  constructor
  · intro outside
    by_contra some_nesting
    obtain ⟨n, hn⟩ := Option.ne_none_iff_exists'.mp some_nesting
    have top : n.outer = [] := List.eq_nil_of_length_eq_zero (Nat.le_zero.mp (length_outer_le hn))
    simpa [top] using outside n hn
  · intro none n hn
    simp [none] at hn

end HostTrust.Xml
