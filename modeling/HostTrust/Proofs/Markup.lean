/-
HostTrust.Proofs.Markup — tags as they may be written, and what is read of them.

One tag has many written forms: its name and those of its attributes may be
qualified, the attributes may stand in any order, with blanks between them and
around their signs, and their values in quotes of either kind. The styles of
this module are these choices, `TagStyle.content` is the tag that they lead to.
Whatever the style, the tag ends where it should (`TagStyle.tagContent_content`),
and a search for an attribute gives its value (`TagStyle.attribute?_tag`).
-/
import HostTrust.Sorted.Names
import HostTrust.Xml.Attribute
import Mathlib.Data.List.Perm.Basic

namespace HostTrust.Xml

/-! ## Names and blanks -/

/-- The signs that markup is made of. Neither they nor a colon stand in a name. -/
def signs : List Char := ['<', '>', '/', '=', '!', '?', '"', '\'']

def isNameChar (c : Char) : Bool := !isSpace c && c != ':' && !signs.contains c

def IsName (name : List Char) : Prop := name ≠ [] ∧ name.all isNameChar = true

instance (name : List Char) : Decidable (IsName name) := inferInstanceAs (Decidable (_ ∧ _))

/-- What stands in front of the colon of a name. -/
structure Qualifier where
  chars : List Char
  isName : IsName chars

/-- A name, with a qualifier or without one. -/
def qualified (q : Option Qualifier) (name : List Char) : List Char :=
  (q.elim [] fun q => q.chars ++ [':']) ++ name

/-- Blanks, any number of them. -/
structure Gap where
  chars : List Char
  blank : chars.all isSpace = true

def Gap.none : Gap := ⟨[], rfl⟩

def Gap.one : Gap := ⟨[' '], rfl⟩

theorem isNameChar_iff {c : Char} :
    isNameChar c = true ↔ isSpace c = false ∧ c ≠ ':' ∧ c ∉ signs := by
  simp [isNameChar, and_assoc]

variable {q : Option Qualifier} {name : List Char}

theorem mem_qualified {c : Char} (h : IsName name) (hc : c ∈ qualified q name) :
    isNameChar c = true ∨ c = ':' := by
  rcases List.mem_append.mp hc with hc | hc
  · cases q with
    | none => cases hc
    | some q =>
      rcases List.mem_append.mp hc with hc | hc
      · exact .inl (List.all_eq_true.mp q.isName.2 c hc)
      · exact .inr (List.mem_singleton.mp hc)
  · exact .inl (List.all_eq_true.mp h.2 c hc)

/-- No sign stands in a qualified name. -/
theorem not_mem_signs_of_mem_qualified {c : Char} (h : IsName name) (hc : c ∈ qualified q name) :
    c ∉ signs := by
  rcases mem_qualified h hc with named | rfl
  · exact (isNameChar_iff.mp named).2.2
  · decide

theorem isSpace_of_mem_qualified {c : Char} (h : IsName name) (hc : c ∈ qualified q name) :
    isSpace c = false := by
  rcases mem_qualified h hc with named | rfl
  · exact (isNameChar_iff.mp named).1
  · rfl

theorem exists_qualified_eq_cons (h : IsName name) : ∃ c rest, qualified q name = c :: rest := by
  refine List.exists_cons_of_ne_nil fun empty => h.1 ?_
  exact (List.append_eq_nil_iff.mp empty).2

/-- The qualifier does not count. -/
theorem localName_qualified (h : IsName name) : localName (qualified q name) = name := by
  have plain : ∀ cs : List Char, cs.all isNameChar = true →
      ∀ more : List Char, (cs ++ more).dropWhile (· != ':') = more.dropWhile (· != ':') := by
    intro cs named more
    refine List.dropWhile_append_of_pos fun c hc => ?_
    have other := (isNameChar_iff.mp (List.all_eq_true.mp named c hc)).2.1
    simpa using other
  cases q with
  | none =>
    have none_left : name.dropWhile (· != ':') = [] := by simpa using plain name h.2 []
    simp [localName, qualified, none_left]
  | some q => simp [localName, qualified, plain q.chars q.isName.2]

theorem Gap.isSpace_of_mem (g : Gap) {c : Char} (h : c ∈ g.chars) : isSpace c = true :=
  List.all_eq_true.mp g.blank c h

/-- No sign is a blank. -/
theorem Gap.ne_of_mem (g : Gap) {c sign : Char} (h : c ∈ g.chars) (ink : isSpace sign = false) :
    c ≠ sign := by
  rintro rfl
  exact absurd (g.isSpace_of_mem h) (by simp [ink])

theorem Gap.dropWhile_append (g : Gap) (cs : List Char) :
    (g.chars ++ cs).dropWhile isSpace = cs.dropWhile isSpace :=
  List.dropWhile_append_of_pos fun _ => g.isSpace_of_mem

/-! ## Escaped text -/

/-- The signs that end character data or a value. -/
def endSigns : List Char := ['<', '>', '"', '\'']

/-- They are not in escaped text. -/
theorem not_mem_endSigns_of_mem_escape {c : Char} {cs : List Char} (h : c ∈ escape cs) :
    c ∉ endSigns := by
  obtain ⟨d, -, hc⟩ := List.mem_flatMap.mp h
  have escaped : (escapeChar d).all (!endSigns.contains ·) = true := by
    unfold escapeChar
    split
    case h_6 lt gt amp apos quot => simpa [endSigns] using ⟨lt, gt, quot, apos⟩
    all_goals rfl
  simpa using List.all_eq_true.mp escaped c hc

/-! ## Attributes -/

inductive Quote where
  | single
  | double
  deriving DecidableEq, Repr

def Quote.char : Quote → Char
  | .single => '\''
  | .double => '"'

/-- No quote of either kind stands in escaped text. -/
theorem Quote.ne_of_mem_escape (quote : Quote) {c : Char} {cs : List Char} (h : c ∈ escape cs) :
    c ≠ quote.char := by
  rintro rfl
  refine not_mem_endSigns_of_mem_escape h ?_
  cases quote <;> decide

/-- How an attribute is written: what stands in front of it and around its sign, its qualifier
and the kind of its quotes. -/
structure AttributeStyle where
  gap : Gap
  apart : gap.chars ≠ []
  qualifier : Option Qualifier
  before : Gap
  after : Gap
  quote : Quote

/-- An attribute in quotes, after one blank. -/
def AttributeStyle.plain (quote : Quote) : AttributeStyle :=
  ⟨.one, by decide, none, .none, .none, quote⟩

namespace AttributeStyle

/-- A value in quotes. -/
def quoted (s : AttributeStyle) (value : String) : List Char :=
  s.quote.char :: (escape value.toList ++ [s.quote.char])

def chars (s : AttributeStyle) (name value : String) : List Char :=
  s.gap.chars ++ (qualified s.qualifier name.toList ++
    (s.before.chars ++ '=' :: (s.after.chars ++ s.quoted value)))

variable (s : AttributeStyle) {name value : String}

theorem quotedValue_quoted (rest : List Char) :
    quotedValue (s.quoted value ++ rest) = some (escape value.toList, rest) := by
  have inside : ∀ c ∈ escape value.toList, (c != s.quote.char) = true := fun c hc => by
    simpa using s.quote.ne_of_mem_escape hc
  have opening : s.quote.char = '"' ∨ s.quote.char = '\'' := by
    cases s.quote <;> simp [Quote.char]
  rw [quoted, List.cons_append, List.append_assoc, quotedValue, if_pos opening,
    List.dropWhile_append_of_pos inside, List.takeWhile_append_of_pos inside]
  simp

theorem isSpace_quote (q : Quote) : isSpace q.char = false := by
  cases q <;> rfl

theorem readAttribute_chars (named : IsName name.toList) (rest : List Char) :
    readAttribute (qualified s.qualifier name.toList ++
      (s.before.chars ++ '=' :: (s.after.chars ++ s.quoted value)) ++ rest) =
      some (⟨qualified s.qualifier name.toList, escape value.toList⟩, rest) := by
  obtain ⟨first, others, split⟩ := exists_qualified_eq_cons (q := s.qualifier) named
  have inName : ∀ c ∈ others, (c != '=' && !isSpace c) = true := by
    intro c hc
    have mem : c ∈ qualified s.qualifier name.toList := split ▸ .tail _ hc
    have no_sign : c ≠ '=' := by
      rintro rfl
      exact not_mem_signs_of_mem_qualified named mem (by decide)
    simp [no_sign, isSpace_of_mem_qualified named mem]
  -- The name ends at the first blank, or at the sign.
  have ends : ∀ more : List Char, (s.before.chars ++ '=' :: more).takeWhile
        (fun c => c != '=' && !isSpace c) = [] ∧
      (s.before.chars ++ '=' :: more).dropWhile (fun c => c != '=' && !isSpace c) =
        s.before.chars ++ '=' :: more := by
    intro more
    cases gap : s.before.chars with
    | nil => simp
    | cons b _ =>
      have blank : isSpace b = true := s.before.isSpace_of_mem (by simp [gap])
      simp [blank]
  simp only [split, List.cons_append, List.append_assoc, readAttribute]
  rw [List.takeWhile_append_of_pos inName, List.dropWhile_append_of_pos inName,
    (ends _).1, (ends _).2, s.before.dropWhile_append]
  have sign : isSpace '=' = false := rfl
  rw [List.dropWhile_cons, if_neg (by simp [sign])]
  have value_first : (s.after.chars ++ (s.quoted value ++ rest)).dropWhile isSpace =
      s.quoted value ++ rest := by
    rw [s.after.dropWhile_append, quoted, List.cons_append, List.dropWhile_cons,
      if_neg (by simp [isSpace_quote])]
  simp [value_first, quotedValue_quoted]

end AttributeStyle

/-! ## Parts of tags -/

/-- A part of a start tag: the tag does not end in it, no quotes stay open behind it, and its last
character is not that of a tag without content. -/
structure Passes (cs : List Char) : Prop where
  reads : ∀ latest rest,
    tagContent none latest (cs ++ rest) = tagContent none (cs.reverse ++ latest) rest
  last : cs.getLast? ≠ some '/'

theorem Passes.nil : Passes [] := ⟨fun _ _ => rfl, by simp⟩

theorem Passes.append {cs cs' : List Char} (h : Passes cs) (h' : Passes cs') :
    Passes (cs ++ cs') := by
  refine ⟨fun latest rest => ?_, ?_⟩
  · rw [List.append_assoc, h.reads, h'.reads, List.reverse_append, List.append_assoc]
  · rw [List.getLast?_append]
    cases last : cs'.getLast? with
    | none => exact h.last
    | some c =>
      rw [Option.some_or, ← last]
      exact h'.last

/-- The characters at which reading a tag changes. -/
def tagSigns : List Char := ['>', '"', '\'', '/']

theorem Passes.singleton {c : Char} (other : c ∉ tagSigns) : Passes [c] := by
  simp only [tagSigns, List.mem_cons, List.not_mem_nil, or_false, not_or] at other
  exact ⟨fun latest rest => by simp [tagContent, other], by simp [other]⟩

theorem Passes.of_forall {cs : List Char} (h : ∀ c ∈ cs, c ∉ tagSigns) : Passes cs := by
  induction cs with
  | nil => exact .nil
  | cons c cs ih =>
    exact Passes.append (.singleton (h c (.head _))) (ih fun d hd => h d (.tail _ hd))

theorem Passes.gap (g : Gap) : Passes g.chars := by
  have ink : tagSigns.all (!isSpace ·) = true := rfl
  refine .of_forall fun c hc sign => ?_
  have no_blank := List.all_eq_true.mp ink c sign
  exact g.ne_of_mem hc (by simpa using no_blank) rfl

theorem Passes.qualified (h : IsName name) : Passes (qualified q name) := by
  have among : tagSigns.all signs.contains = true := rfl
  refine .of_forall fun c hc sign => ?_
  have isSign := List.all_eq_true.mp among c sign
  exact not_mem_signs_of_mem_qualified h hc (by simpa using isSign)

/-- Between quotes all is passed over up to the next quote of the same kind. -/
theorem tagContent_quoted {quote : Char} {cs : List Char} (inside : ∀ c ∈ cs, c ≠ quote)
    (latest rest : List Char) : tagContent (some quote) latest (cs ++ quote :: rest) =
      tagContent none (quote :: (cs.reverse ++ latest)) rest := by
  induction cs generalizing latest with
  | nil => simp [tagContent]
  | cons c cs ih =>
    rw [List.cons_append, tagContent]
    simp only [inside c (.head _), if_false]
    rw [ih fun d hd => inside d (.tail _ hd)]
    simp

theorem Passes.quoted (style : AttributeStyle) (value : String) : Passes (style.quoted value) := by
  have opening : style.quote.char ≠ '>' ∧ style.quote.char ≠ '/' ∧
      (style.quote.char = '"' ∨ style.quote.char = '\'') := by
    cases style.quote <;> simp [Quote.char]
  constructor
  · intro latest rest
    rw [AttributeStyle.quoted, List.cons_append, tagContent]
    simp only [opening, if_true, if_false, List.append_assoc, List.singleton_append]
    rw [tagContent_quoted fun c hc => style.quote.ne_of_mem_escape hc]
    simp
  · rw [AttributeStyle.quoted, List.getLast?_cons]
    simp [opening]

theorem Passes.attribute (style : AttributeStyle) {name : String} (value : String)
    (h : IsName name.toList) : Passes (style.chars name value) := by
  have sign : Passes ('=' :: (style.after.chars ++ style.quoted value)) :=
    Passes.append (.singleton (by decide)) (Passes.append (.gap _) (.quoted style value))
  exact Passes.append (.gap _) (Passes.append (.qualified h) (Passes.append (.gap _) sign))

/-! ## Tags -/

/-- How a tag with some attributes is written: its qualifier, the attributes in one of their
orders, each in its own way, and the blanks at its end. -/
structure TagStyle (attributes : List (String × String)) where
  qualifier : Option Qualifier
  written : List (AttributeStyle × String × String)
  same : (written.map Prod.snd).Perm attributes
  tail : Gap

/-- The name of each attribute can be one, and no two have the same. -/
structure Named (attributes : List (String × String)) : Prop where
  isName : ∀ a ∈ attributes, IsName a.1.toList
  nodup : (attributes.map Prod.fst).Nodup

theorem Named.perm {attributes others : List (String × String)} (named : Named attributes)
    (same : others.Perm attributes) : Named others where
  isName a ha := named.isName a (same.mem_iff.mp ha)
  nodup := (same.map Prod.fst).nodup_iff.mpr named.nodup

theorem Named.of_sublist {attributes : List (String × String)} {names : List String}
    (h : (attributes.map Prod.fst).Sublist names) (isName : ∀ name ∈ names, IsName name.toList)
    (nodup : names.Nodup) : Named attributes where
  isName _ ha := isName _ (h.mem (List.mem_map_of_mem ha))
  nodup := h.nodup nodup

/-- What is found under a name does not depend on the order. -/
theorem Named.lookup_eq {attributes others : List (String × String)} (named : Named attributes)
    (same : others.Perm attributes) (name : String) :
    others.lookup name = attributes.lookup name := by
  have found : ∀ {l : List (String × String)}, Named l → ∀ value : String,
      l.lookup name = some value ↔ (name, value) ∈ l := by
    intro l hl value
    induction l with
    | nil => simp
    | cons a l ih =>
      have rest : Named l :=
        ⟨fun b hb => hl.isName b (.tail _ hb), (List.nodup_cons.mp hl.nodup).2⟩
      have other : a.1 ∉ l.map Prod.fst := (List.nodup_cons.mp hl.nodup).1
      rw [Sorted.lookup_cons, List.mem_cons]
      split
      case isTrue here =>
        have later : (name, value) ∉ l := fun mem =>
          other (List.mem_map.mpr ⟨_, mem, here⟩)
        rw [here] at later ⊢
        simp [Prod.ext_iff, later, eq_comm]
      case isFalse here =>
        rw [ih rest]
        simp [Prod.ext_iff, here]
  refine Option.ext fun value => ?_
  rw [found (named.perm same), found named, same.mem_iff]

/-- The attributes in their order, each in double quotes and after one blank. -/
def TagStyle.plain (attributes : List (String × String)) : TagStyle attributes where
  qualifier := none
  written := attributes.map (AttributeStyle.plain .double, ·)
  same := by simp [Function.comp_def]
  tail := .none

namespace TagStyle

variable {attributes : List (String × String)} (s : TagStyle attributes) {name : String}

/-- The attributes as they are written. -/
def attributeChars : List Char :=
  s.written.flatMap (fun a => a.1.chars a.2.1 a.2.2) ++ s.tail.chars

/-- What stands between the `<` of the tag and its end. -/
def content (name : String) : List Char := qualified s.qualifier name.toList ++ s.attributeChars

/-- The tag as it is read. -/
def tag (name : String) : Tag := ⟨qualified s.qualifier name.toList, s.attributeChars⟩

/-- Attributes begin with a blank. -/
theorem isSpace_of_head?_attributeChars {c : Char} (h : s.attributeChars.head? = some c) :
    isSpace c = true := by
  unfold attributeChars at h
  cases written : s.written with
  | nil =>
    rw [written] at h
    exact s.tail.isSpace_of_mem (List.mem_of_mem_head? h)
  | cons a others =>
    obtain ⟨b, blanks, gap⟩ := List.exists_cons_of_ne_nil a.1.apart
    rw [written] at h
    obtain rfl : b = c := by simpa [AttributeStyle.chars, gap] using h
    exact a.1.gap.isSpace_of_mem (by simp [gap])

theorem tagOf_content (h : IsName name.toList) : tagOf (s.content name) = s.tag name := by
  have inName : ∀ c ∈ qualified s.qualifier name.toList, (!isSpace c) = true := fun c hc => by
    simp [isSpace_of_mem_qualified h hc]
  have ends : s.attributeChars.takeWhile (fun c => !isSpace c) = [] ∧
      s.attributeChars.dropWhile (fun c => !isSpace c) = s.attributeChars := by
    cases chars : s.attributeChars with
    | nil => exact ⟨rfl, rfl⟩
    | cons c rest =>
      have blank : isSpace c = true := s.isSpace_of_head?_attributeChars (by rw [chars]; rfl)
      simp [blank]
  rw [tagOf, content, List.takeWhile_append_of_pos inName, List.dropWhile_append_of_pos inName,
    ends.1, ends.2, List.append_nil, tag]

/-! ### Attributes that are searched for -/

/-- One step of the search reads one attribute: it is the one, or the search goes on behind it. -/
theorem findFrom_attribute (style : AttributeStyle) (isName : IsName name.toList) (value : String)
    {before : List (List Char)} (unread : qualified style.qualifier name.toList ∉ before)
    (wanted : List Char) (steps : Nat) (more : List Char) :
    findFrom wanted (steps + 1) before (style.chars name value ++ more) =
      if name.toList = wanted then .ok (some (escape value.toList))
      else findFrom wanted steps (qualified style.qualifier name.toList :: before) more := by
  obtain ⟨first, inner, split⟩ := exists_qualified_eq_cons (q := style.qualifier) isName
  have opens : isSpace first = false :=
    isSpace_of_mem_qualified (q := style.qualifier) isName (by simp [split])
  have skipped : (style.chars name value ++ more).dropWhile isSpace =
      first :: (inner ++ (style.before.chars ++ '=' ::
        (style.after.chars ++ style.quoted value)) ++ more) := by
    rw [AttributeStyle.chars, List.append_assoc, style.gap.dropWhile_append, split]
    simp [opens]
  have read : readAttribute (first :: (inner ++ (style.before.chars ++ '=' ::
      (style.after.chars ++ style.quoted value)) ++ more)) =
      some (⟨qualified style.qualifier name.toList, escape value.toList⟩, more) := by
    rw [← style.readAttribute_chars isName more, split]
    rfl
  rw [findFrom, skipped]
  simp only [read, List.contains_eq_mem, unread, decide_false, Bool.false_eq_true, if_false,
    localName_qualified isName]
  rfl

theorem findFrom_written {written : List (AttributeStyle × String × String)} (tail : Gap)
    (named : Named (written.map Prod.snd)) (wanted : String) {before : List (List Char)}
    (fresh : ∀ b ∈ before, ∀ a ∈ written, localName b ≠ a.2.1.toList) {steps : Nat}
    (enough : written.length < steps) :
    findFrom wanted.toList steps before
        (written.flatMap (fun a => a.1.chars a.2.1 a.2.2) ++ tail.chars) =
      .ok (((written.map Prod.snd).lookup wanted).map fun value => escape value.toList) := by
  obtain ⟨steps, rfl⟩ : ∃ n, steps = n + 1 := ⟨steps - 1, by omega⟩
  induction written generalizing before steps with
  | nil =>
    have blank : tail.chars.dropWhile isSpace = [] := by
      simpa using tail.dropWhile_append []
    simp [findFrom, blank, pure, Except.pure]
  | cons a others ih =>
    obtain ⟨style, name, value⟩ := a
    have isName : IsName name.toList := named.isName (name, value) (.head _)
    have later : Named (others.map Prod.snd) :=
      ⟨fun b hb => named.isName b (.tail _ hb), (List.nodup_cons.mp named.nodup).2⟩
    have different : ∀ b ∈ others, name ≠ b.2.1 := by
      intro b hb same
      refine (List.nodup_cons.mp named.nodup).1 (List.mem_map.mpr ⟨b.2, ?_, same.symm⟩)
      exact List.mem_map_of_mem hb
    have unread : qualified style.qualifier name.toList ∉ before := fun mem =>
      fresh _ mem _ (.head _) (localName_qualified isName)
    have nextFresh : ∀ b ∈ qualified style.qualifier name.toList :: before, ∀ a ∈ others,
        localName b ≠ a.2.1.toList := by
      refine List.forall_mem_cons.mpr ⟨fun a ha same => ?_, fun b hb a ha =>
        fresh b hb a (.tail _ ha)⟩
      rw [localName_qualified isName] at same
      exact different a ha (String.toList_injective same)
    obtain ⟨steps, rfl⟩ : ∃ n, steps = n + 1 := ⟨steps - 1, by simp at enough; omega⟩
    rw [List.flatMap_cons, List.append_assoc, findFrom_attribute style isName value unread,
      ih later nextFresh steps (by simpa using enough), List.map_cons, Sorted.lookup_cons]
    by_cases found : wanted = name
    case pos => rw [if_pos found, if_pos (by rw [found])]; rfl
    case neg =>
      rw [if_neg found, if_neg fun same => found (String.toList_injective same).symm]

theorem length_written_le : s.written.length ≤ s.attributeChars.length := by
  rw [attributeChars, List.length_append]
  refine Nat.le_add_right_of_le ?_
  induction s.written with
  | nil => exact Nat.le_refl 0
  | cons a others ih =>
    have some_sign : 1 ≤ (a.1.chars a.2.1 a.2.2).length :=
      List.length_pos_of_mem (a := '=') (by simp [AttributeStyle.chars])
    rw [List.flatMap_cons, List.length_append, List.length_cons]
    omega

/-- A search for an attribute gives its value, whatever the style. -/
theorem attribute?_tag (named : Named attributes) (wanted : String) :
    (s.tag name).attribute? wanted = .ok (attributes.lookup wanted) := by
  have found : findFrom wanted.toList (s.attributeChars.length + 1) [] s.attributeChars =
      .ok ((attributes.lookup wanted).map fun value => escape value.toList) := by
    rw [← named.lookup_eq s.same]
    refine findFrom_written s.tail (named.perm s.same) wanted (by simp) ?_
    exact Nat.lt_succ_of_le s.length_written_le
  rw [Tag.attribute?, tag]
  simp only [found, bind, Except.bind]
  cases attributes.lookup wanted with
  | none => rfl
  | some value => simp [expand_escape, pure, Except.pure]

/-! ### The end of the tag -/

theorem passes_content (isName : IsName name.toList) (named : Named attributes) :
    Passes (s.content name) := by
  have each : ∀ written : List (AttributeStyle × String × String),
      (∀ a ∈ written, IsName a.2.1.toList) →
      Passes (written.flatMap fun a => a.1.chars a.2.1 a.2.2) := by
    intro written named
    induction written with
    | nil => exact .nil
    | cons a others ih =>
      rw [List.flatMap_cons]
      exact Passes.append (.attribute a.1 a.2.2 (named a (.head _)))
        (ih fun b hb => named b (.tail _ hb))
  refine Passes.append (.qualified isName) (Passes.append (each _ fun a ha => ?_) (.gap _))
  exact (named.perm s.same).isName a.2 (List.mem_map_of_mem ha)

/-- The content of a start tag is read up to its end. -/
theorem tagContent_content (isName : IsName name.toList) (named : Named attributes)
    (rest : List Char) : tagContent none [] (s.content name ++ '>' :: rest) =
      some (s.content name, rest) := by
  rw [(s.passes_content isName named).reads]
  simp [tagContent]

/-- The content of the tag of an element without content is read up to its end. -/
theorem tagContent_content_lone (isName : IsName name.toList) (named : Named attributes)
    (rest : List Char) : tagContent none [] (s.content name ++ '/' :: '>' :: rest) =
      some (s.content name ++ ['/'], rest) := by
  rw [(s.passes_content isName named).reads]
  simp [tagContent]

end TagStyle

end HostTrust.Xml
