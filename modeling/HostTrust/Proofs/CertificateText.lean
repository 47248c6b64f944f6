/-
HostTrust.Proofs.CertificateText — the texts that give a certificate.

A certificate comes as PEM or as base 64 of its binary form with blanks anywhere.
`Certificate.GivenBy` says what such texts look like, from the writer's side: a
PEM block may break its body into lines of any width, its lines end with a line
feed or with a carriage return and a line feed, and blanks may stand around it.
Every such text gives the same certificate (`Certificate.decode_givenBy`).

The lines are followed one by one. A line that is read leaves what follows it as
it is (`Pem.lines_append`), so the lines of a block are those that were written,
whatever comes after; and an element is read as the same element whatever
follows it (`Der.read_append`), so what a certificate was written as reads as
that certificate alone (`Certificate.ofBytes?_encoded`).
-/
import HostTrust.Certificate
import HostTrust.Proofs.Base64Form
import HostTrust.Proofs.LetterCase

namespace HostTrust

/-! ## Elements -/

namespace Der

/-- The bytes of a length tell it, whatever follows them. -/
theorem readLength_append {bs rest : Bytes} {length taken : Nat}
    (h : readLength bs = some (length, taken, rest)) :
    ∃ written, bs = written ++ rest ∧ written.length = taken ∧
      ∀ other, readLength (written ++ other) = some (length, taken, other) := by
  cases bs with
  | nil => cases h
  | cons b bs =>
    simp only [readLength] at h
    split at h
    case isTrue short =>
      obtain ⟨rfl, rfl, rfl⟩ : b.toNat = length ∧ 1 = taken ∧ bs = rest := by simpa using h
      exact ⟨[b], rfl, rfl, fun other => by simp [readLength, short]⟩
    case isFalse long =>
      split at h
      case isTrue => cases h
      case isFalse definite =>
        split at h
        case isFalse => cases h
        case isTrue enough =>
          obtain ⟨rfl, rfl, rfl⟩ : Digest.ofBigEndian (bs.take (b.toNat - 0x80)) = length ∧
              b.toNat - 0x80 + 1 = taken ∧ bs.drop (b.toNat - 0x80) = rest := by simpa using h
          refine ⟨b :: bs.take (b.toNat - 0x80), by simp, by simpa using enough, fun other => ?_⟩
          have first : (bs.take (b.toNat - 0x80) ++ other).take (b.toNat - 0x80) =
              bs.take (b.toNat - 0x80) := List.take_left' enough
          have later : (bs.take (b.toNat - 0x80) ++ other).drop (b.toNat - 0x80) = other :=
            List.drop_left' enough
          simp [readLength, long, definite, first, later, enough]

/-- An element is read from the bytes that it was written as, whatever follows them. -/
theorem read_append {bs rest : Bytes} {e : Element} (h : read bs = some (e, rest))
    (other : Bytes) : read (e.encoded ++ other) = some (e, other) := by
  cases bs with
  | nil => cases h
  | cons tag bs =>
    simp only [read] at h
    split at h
    case isTrue => cases h
    case isFalse short =>
      obtain ⟨⟨length, taken, content⟩, hlength, h⟩ := Option.bind_eq_some_iff.mp h
      obtain ⟨written, rfl, rfl, again⟩ := readLength_append hlength
      obtain ⟨enough, rfl, -⟩ : (content.take length).length = length ∧
          (⟨tag, content.take length,
            (tag :: (written ++ content)).take (1 + written.length + length)⟩ : Element) = e ∧
          content.drop length = rest := by simpa using h
      have whole : (tag :: (written ++ content)).take (1 + written.length + length) =
          tag :: (written ++ content.take length) := by
        rw [Nat.add_assoc, Nat.add_comm 1, List.take_succ_cons, List.take_length_add_append]
      have reread := again (content.take length ++ other)
      generalize content.take length = body at enough whole reread
      subst enough
      have cut : (tag :: (written ++ (body ++ other))).take (1 + written.length + body.length) =
          tag :: (written ++ body) := by
        rw [Nat.add_assoc, Nat.add_comm 1, List.take_succ_cons, List.take_length_add_append,
          List.take_left]
      simp [whole, read, short, reread, cut]

theorem expect_encoded {tag : UInt8} {bs rest : Bytes} {e : Element}
    (h : expect tag bs = some (e, rest)) : expect tag e.encoded = some (e, []) := by
  obtain ⟨⟨e', rest'⟩, hread, h⟩ := Option.bind_eq_some_iff.mp h
  obtain ⟨tagged, rfl, -⟩ : e'.tag = tag ∧ e' = e ∧ rest' = rest := by simpa using h
  have again := read_append hread []
  rw [List.append_nil] at again
  simp [expect, again, tagged]

theorem readLength_suffix {bs rest : Bytes} {length taken : Nat}
    (h : readLength bs = some (length, taken, rest)) : rest <:+ bs := by
  obtain ⟨written, rfl, -⟩ := readLength_append h
  exact List.suffix_append _ _

/-- What an element holds stands in what it was read from, and the rest stands at its end. -/
theorem read_parts {bs rest : Bytes} {e : Element} (h : read bs = some (e, rest)) :
    e.content <:+: bs ∧ rest <:+ bs := by
  cases bs with
  | nil => cases h
  | cons tag bs =>
    simp only [read] at h
    split at h
    case isTrue => cases h
    case isFalse =>
      obtain ⟨⟨length, taken, content⟩, hlength, h⟩ := Option.bind_eq_some_iff.mp h
      obtain ⟨-, rfl, rfl⟩ : (content.take length).length = length ∧
          (⟨tag, content.take length, (tag :: bs).take (1 + taken + length)⟩ : Element) = e ∧
          content.drop length = rest := by simpa using h
      have after : content <:+ tag :: bs := (readLength_suffix hlength).trans (List.suffix_cons _ _)
      exact ⟨(List.take_prefix _ _).isInfix.trans after.isInfix, (List.drop_suffix _ _).trans after⟩

theorem expect_parts {tag : UInt8} {bs rest : Bytes} {e : Element}
    (h : expect tag bs = some (e, rest)) : e.content <:+: bs ∧ rest <:+ bs := by
  obtain ⟨⟨e', rest'⟩, hread, h⟩ := Option.bind_eq_some_iff.mp h
  obtain ⟨-, rfl, rfl⟩ : e'.tag = tag ∧ e' = e ∧ rest' = rest := by simpa using h
  exact read_parts hread

theorem optional_suffix (tag : UInt8) (bs : Bytes) : (optional tag bs).2 <:+ bs := by
  unfold optional
  cases h : expect tag bs with
  | none => exact List.suffix_refl _
  | some r => exact (expect_parts h).2

theorem content_infix_of_mem_readAll {steps : Nat} {bs : Bytes} {es : List Element} {e : Element}
    (h : readAll steps bs = some es) (mem : e ∈ es) : e.content <:+: bs := by
  induction steps generalizing bs es with
  | zero =>
    cases bs with
    | nil => simp_all [readAll]
    | cons => cases h
  | succ steps ih =>
    cases bs with
    | nil => simp_all [readAll]
    | cons b bs =>
      obtain ⟨⟨first, rest⟩, hfirst, h⟩ := Option.bind_eq_some_iff.mp h
      obtain ⟨others, hothers, h⟩ := Option.bind_eq_some_iff.mp h
      obtain rfl := Option.some.inj h
      rcases List.mem_cons.mp mem with rfl | later
      · exact (read_parts hfirst).1
      · exact (ih hothers later).trans (read_parts hfirst).2.isInfix

theorem Element.content_infix_of_mem {whole e : Element} {es : List Element}
    (h : whole.parts = some es) (mem : e ∈ es) : e.content <:+: whole.content :=
  content_infix_of_mem_readAll h mem

end Der

/-! ## Lines -/

namespace Pem

/-- What ends a line: a line feed, and perhaps a carriage return before it. -/
def IsLineEnd (stop : List Char) : Prop := stop = ['\n'] ∨ stop = ['\r', '\n']

/-- A line that is read as it is: without a line feed, and with a visible end. -/
structure IsLine (line : List Char) : Prop where
  unbroken : '\n' ∉ line
  visibleEnd : ∀ c, line.getLast? = some c → 0x20 < c.toNat

theorem isLine_of_visible {line : List Char} (h : ∀ c ∈ line, 0x20 < c.toNat) : IsLine line where
  unbroken hn := absurd (h _ hn) (by decide)
  visibleEnd c hc := h c (List.mem_of_mem_getLast? hc)

theorem linesFrom_append {line : List Char} (h : '\n' ∉ line) (read after : List Char) :
    linesFrom read (line ++ '\n' :: after) = (read.reverse ++ line) :: linesFrom [] after := by
  induction line generalizing read with
  | nil => simp [linesFrom]
  | cons c line ih =>
    have notFeed : c ≠ '\n' := fun e => h (e ▸ List.mem_cons_self)
    rw [List.cons_append, linesFrom, if_neg notFeed, ih (mt (List.mem_cons_of_mem c) h)]
    simp

theorem linesFrom_last {line : List Char} (h : '\n' ∉ line) (read : List Char) :
    linesFrom read line = if (read.reverse ++ line).isEmpty then [] else [read.reverse ++ line] := by
  induction line generalizing read with
  | nil => simp [linesFrom]
  | cons c line ih =>
    have notFeed : c ≠ '\n' := fun e => h (e ▸ List.mem_cons_self)
    rw [linesFrom, if_neg notFeed, ih (mt (List.mem_cons_of_mem c) h)]
    simp

theorem strip_append {line invisible : List Char} (h : IsLine line)
    (blank : ∀ c ∈ invisible, c.toNat ≤ 0x20) : strip (line ++ invisible) = line := by
  have gone : ∀ c ∈ invisible.reverse, decide (c.toNat ≤ 0x20) = true := by simpa using blank
  rw [strip, List.reverse_append, List.dropWhile_append_of_pos gone, Text.dropWhile_eq_self,
    List.reverse_reverse]
  intro c hc
  rw [List.head?_reverse] at hc
  simpa using h.visibleEnd c hc

theorem strip_line {line : List Char} (h : IsLine line) : strip line = line := by
  have kept := strip_append h (List.forall_mem_nil _)
  rwa [List.append_nil] at kept

/-- A line that is read leaves what follows it as it is. -/
theorem lines_append {line stop : List Char} (h : IsLine line) (ends : IsLineEnd stop)
    (after : List Char) : lines (line ++ stop ++ after) = line :: lines after := by
  rcases ends with rfl | rfl
  · rw [lines, List.append_assoc, List.singleton_append, linesFrom_append h.unbroken]
    simp [strip_line h, lines]
  · have unbroken : '\n' ∉ line ++ ['\r'] := by simp [h.unbroken]
    rw [lines, List.append_assoc]
    show (linesFrom [] (line ++ (['\r'] ++ '\n' :: after))).map strip = _
    rw [← List.append_assoc, linesFrom_append unbroken]
    simp [strip_append h, lines]

/-- The last line of a text needs no end. -/
theorem lines_last {line : List Char} (h : IsLine line) (nonempty : line ≠ []) :
    lines line = [line] := by
  simp [lines, linesFrom_last h.unbroken, nonempty, strip_line h]

/-! ## Blocks -/

/-- Characters on lines that are not empty, of any width. -/
inductive OnLines : List Char → List Char → Prop where
  | none : OnLines [] []
  | line {row stop cs text : List Char} :
    row ≠ [] → IsLineEnd stop → OnLines cs text → OnLines (row ++ cs) (row ++ stop ++ text)

/-- A text that is one block: the line that begins it, base 64 on lines, the line that ends it. -/
def Block.WrittenAs (b : Block) (text : List Char) : Prop :=
  ∃ stop rows, IsLineEnd stop ∧ OnLines (Base64.encodeChars b.content) rows ∧
    text = (beginning ++ (b.label ++ dashes)) ++ stop ++ (rows ++ (ending ++ (b.label ++ dashes)))

/-- A line of the body of a block. -/
structure IsRow (row : List Char) : Prop where
  nonempty : row ≠ []
  signs : ∀ c ∈ row, Base64.IsSign c

theorem IsRow.isLine {row : List Char} (h : IsRow row) : IsLine row :=
  isLine_of_visible fun c hc => (h.signs c hc).visible

theorem OnLines.exists_rows {cs text : List Char} (h : OnLines cs text)
    (signs : ∀ c ∈ cs, Base64.IsSign c) :
    ∃ rows : List (List Char), rows.flatten = cs ∧ (∀ row ∈ rows, IsRow row) ∧
      ∀ after, lines (text ++ after) = rows ++ lines after := by
  induction h with
  | none => exact ⟨[], rfl, by simp, fun _ => rfl⟩
  | @line row stop cs text nonempty ends _ ih =>
    obtain ⟨rows, rfl, later, read⟩ := ih fun c hc => signs c (List.mem_append_right _ hc)
    have first : IsRow row := ⟨nonempty, fun c hc => signs c (List.mem_append_left _ hc)⟩
    refine ⟨row :: rows, rfl, List.forall_mem_cons.mpr ⟨first, later⟩, fun after => ?_⟩
    rw [List.append_assoc, lines_append first.isLine ends, read, List.cons_append]

theorem IsRow.not_ending {row : List Char} (h : IsRow row) : ending.isPrefixOf row = false := by
  rw [Bool.eq_false_iff]
  intro starts
  have dash : '-' ∈ row := (List.isPrefixOf_iff_prefix.mp starts).subset (by decide)
  exact (h.signs _ dash).notDash rfl

/-- The body of a block is what stands on its lines. -/
theorem body_rows {rows : List (List Char)} (h : ∀ row ∈ rows, IsRow row) (label : List Char)
    (before after : List (List Char)) :
    body label false false before (rows ++ (ending ++ (label ++ dashes)) :: after) =
      some (before.reverse.flatten ++ rows.flatten, after) := by
  induction rows generalizing before with
  | nil =>
    have marked : ending.isPrefixOf (ending ++ (label ++ dashes)) = true :=
      List.isPrefixOf_iff_prefix.mpr (List.prefix_append _ _)
    have nonempty : (ending ++ (label ++ dashes)).isEmpty = false := rfl
    simp [body, marked, nonempty]
  | cons row rows ih =>
    obtain ⟨first, later⟩ := List.forall_mem_cons.mp h
    have noColon : row.contains ':' = false := by
      simpa using fun hc => (first.signs _ hc).notColon rfl
    have nonempty : row.isEmpty = false := List.isEmpty_eq_false_iff.mpr first.nonempty
    rw [List.cons_append, body, nonempty, first.not_ending, noColon]
    simp only [Bool.false_eq_true, if_false, Bool.false_and, Bool.not_false, Bool.and_false]
    rw [ih later]
    simp

theorem label?_beginning (label : List Char) :
    label? (beginning ++ (label ++ dashes)) = some label := by
  have marked : beginning.isPrefixOf (beginning ++ (label ++ dashes)) = true :=
    List.isPrefixOf_iff_prefix.mpr (List.prefix_append _ _)
  have closed : dashes.isSuffixOf (label ++ dashes) = true :=
    List.isSuffixOf_iff_suffix.mpr (List.suffix_append _ _)
  simp [label?, marked, closed]

theorem getLast?_append_dashes (cs : List Char) : (cs ++ dashes).getLast? = some '-' := by
  simp [List.getLast?_append, dashes]

theorem isLine_boundary {start label : List Char} (first : '\n' ∉ start) (h : '\n' ∉ label) :
    IsLine (start ++ (label ++ dashes)) where
  unbroken hn := by
    simp only [List.mem_append] at hn
    rcases hn with hn | hn | hn
    · exact first hn
    · exact h hn
    · exact absurd hn (by decide)
  visibleEnd c hc := by
    rw [← List.append_assoc, getLast?_append_dashes] at hc
    obtain rfl := Option.some.inj hc
    decide

theorem blocksFrom_nil (steps : Nat) : blocksFrom steps [] = ([], true) := by
  cases steps <;> rfl

/-- A text that is one block is read as that block. -/
theorem blocks_writtenAs {b : Block} {text : List Char} (unbroken : '\n' ∉ b.label)
    (nonempty : b.content ≠ []) (h : b.WrittenAs text) :
    blocks (String.ofList text) = ([b], true) := by
  obtain ⟨stop, rowsText, ends, onLines, rfl⟩ := h
  obtain ⟨rows, flat, isRow, read⟩ :=
    onLines.exists_rows fun _ hc => Base64.isSign_of_mem_encodeChars hc
  have start : IsLine (beginning ++ (b.label ++ dashes)) := isLine_boundary (by decide) unbroken
  have last : IsLine (ending ++ (b.label ++ dashes)) := isLine_boundary (by decide) unbroken
  have split := lines_append start ends (rowsText ++ (ending ++ (b.label ++ dashes)))
  rw [read, lines_last last (List.append_ne_nil_of_left_ne_nil (by decide) _)] at split
  have taken := body_rows isRow b.label [] []
  have first : next? ((beginning ++ (b.label ++ dashes)) ::
      (rows ++ [ending ++ (b.label ++ dashes)])) = some (some (b, [])) := by
    rw [next?, label?_beginning]
    simp [taken, flat, decodeBody_encodeChars nonempty]
  rw [blocks, String.toList_ofList, split]
  simp only [List.length_cons, blocksFrom, first, blocksFrom_nil]

end Pem

namespace Certificate

/-- What follows the bytes of a certificate does not matter. -/
theorem ofBytes?_congr {bs bs' rest rest' : Bytes} {whole : Der.Element}
    (h : Der.expect Der.sequence bs = some (whole, rest))
    (h' : Der.expect Der.sequence bs' = some (whole, rest')) : ofBytes? bs = ofBytes? bs' := by
  rw [ofBytes?, ofBytes?, h, h']
  rfl

/-- A certificate is read from one element, and its bounds from two that stand together in it. -/
theorem exists_parts_of_ofBytes? {bs : Bytes} {c : Certificate} (h : ofBytes? bs = some c) :
    ∃ (whole validity notBefore notAfter : Der.Element) (rest : Bytes),
      Der.expect Der.sequence bs = some (whole, rest) ∧ c.encoded = whole.encoded ∧
      validity.content <:+: bs ∧ validity.parts = some [notBefore, notAfter] ∧
        time? notBefore = some c.notBefore ∧ time? notAfter = some c.notAfter := by
  obtain ⟨⟨whole, rest⟩, read, h⟩ := Option.bind_eq_some_iff.mp h
  simp only [Option.bind_eq_bind, Option.bind_eq_some_iff] at h
  obtain ⟨parts, split, h⟩ := h
  split at h
  case h_2 => cases h
  case h_1 signed algorithm signature =>
    by_cases other : signed.tag ≠ Der.sequence ∨ algorithm.tag ≠ Der.sequence
    · rw [if_pos other] at h
      cases h
    · rw [if_neg other] at h
      simp only [Option.bind_eq_some_iff] at h
      obtain ⟨_, serial, _, inner, _, issuer, ⟨validity, _⟩, bounds, _, _, _, _, _, hparts, h⟩ := h
      split at h
      case h_2 => cases h
      case h_1 notBefore notAfter =>
        simp only [Option.bind_eq_some_iff] at h
        obtain ⟨_, _, _, _, _, _, _, _, _, first, _, last, _, _, h⟩ := h
        obtain rfl := Option.some.inj h
        have suffix := (Der.expect_parts issuer).2.trans <| (Der.expect_parts inner).2.trans <|
          (Der.expect_parts serial).2.trans (Der.optional_suffix _ _)
        have inSigned : validity.content <:+: signed.content :=
          (Der.expect_parts bounds).1.trans suffix.isInfix
        have inWhole : signed.content <:+: whole.content :=
          Der.Element.content_infix_of_mem split List.mem_cons_self
        exact ⟨whole, validity, notBefore, notAfter, rest, read, rfl,
          inSigned.trans (inWhole.trans (Der.expect_parts read).1), hparts, first, last⟩

/-- What a certificate was written as reads as the certificate. -/
theorem ofBytes?_encoded {bs : Bytes} {c : Certificate} (h : ofBytes? bs = some c) :
    ofBytes? c.encoded = some c := by
  obtain ⟨whole, -, -, -, rest, read, written, -⟩ := exists_parts_of_ofBytes? h
  rw [written, ← ofBytes?_congr read (Der.expect_encoded read), h]

/-! ## Texts that give a certificate -/

/-- A text that gives a certificate: one PEM block with blanks around it, or base 64 with blanks
anywhere. -/
inductive GivenBy (c : Certificate) (text : String) : Prop where
  | pem {label block before after : List Char} :
    isLabel label = true → (⟨label, c.encoded⟩ : Pem.Block).WrittenAs block →
    (∀ x ∈ before, Text.isBlank x = true) → (∀ x ∈ after, Text.isBlank x = true) →
    text.toList = before ++ block ++ after → GivenBy c text
  | base64 : text.toList.filter (fun x => !Text.isBlank x) = Base64.encodeChars c.encoded →
    GivenBy c text

variable {c : Certificate}

theorem encoded_ne_nil {bs : Bytes} (h : ofBytes? bs = some c) : c.encoded ≠ [] := by
  intro none
  have again := ofBytes?_encoded h
  rw [none] at again
  cases again

theorem label_unbroken {label : List Char} (h : isLabel label = true) : '\n' ∉ label := by
  rw [isLabel, Bool.or_eq_true, beq_iff_eq, beq_iff_eq] at h
  rcases h with rfl | rfl <;> decide

theorem ofPem?_writtenAs {label text : List Char} (known : isLabel label = true)
    (readable : ofBytes? c.encoded = some c)
    (h : (⟨label, c.encoded⟩ : Pem.Block).WrittenAs text) :
    ofPem? (String.ofList text) = some c := by
  have blocks := Pem.blocks_writtenAs (label_unbroken known) (encoded_ne_nil readable) h
  rw [ofPem?, blocks]
  simp [known, readable]

/-- A block is a text without blanks at its ends, and shows that it is PEM. -/
theorem trimChars_writtenAs {b : Pem.Block} {text : List Char} (h : b.WrittenAs text) :
    Text.trimChars text = text ∧ "-----BEGIN".toList.isPrefixOf text = true := by
  obtain ⟨stop, rows, -, -, rfl⟩ := h
  have first : ∀ (cs : List Char), (Pem.beginning ++ cs).head? = some '-' := fun _ => rfl
  refine ⟨Text.trimChars_eq_self (fun c hc => ?_) (fun c hc => ?_), ?_⟩
  · rw [List.append_assoc, List.append_assoc, first] at hc
    obtain rfl := Option.some.inj hc
    decide
  · simp only [← List.append_assoc] at hc
    rw [Pem.getLast?_append_dashes] at hc
    obtain rfl := Option.some.inj hc
    decide
  · rw [List.append_assoc, List.append_assoc]
    rfl

theorem not_pem_of_base64 {text : List Char} {bs : Bytes}
    (h : text.filter (fun x => !Text.isBlank x) = Base64.encodeChars bs) :
    "-----BEGIN".toList.isPrefixOf text = false := by
  rw [Bool.eq_false_iff]
  intro starts
  have dash : '-' ∈ text := (List.isPrefixOf_iff_prefix.mp starts).subset (by decide)
  have written : '-' ∈ Base64.encodeChars bs := h ▸ List.mem_filter.mpr ⟨dash, by decide⟩
  exact (Base64.isSign_of_mem_encodeChars written).notDash rfl

theorem filter_of_blanks {cs : List Char} (h : ∀ x ∈ cs, Text.isBlank x = true) :
    cs.filter (fun x => !Text.isBlank x) = [] :=
  List.filter_eq_nil_iff.mpr fun x hx => by simp [h x hx]

/-- Trimming drops blanks only. -/
theorem filter_trimChars (cs : List Char) :
    (Text.trimChars cs).filter (fun x => !Text.isBlank x) = cs.filter fun x => !Text.isBlank x := by
  obtain ⟨tail, split, blankTail⟩ := Text.dropBlankEnd_isPrefix (cs.dropWhile Text.isBlank)
  have blankStart : ∀ x ∈ cs.takeWhile Text.isBlank, Text.isBlank x = true :=
    List.all_eq_true.mp List.all_takeWhile
  calc (Text.trimChars cs).filter (fun x => !Text.isBlank x)
      = (cs.dropWhile Text.isBlank).filter fun x => !Text.isBlank x := by
        rw [split, List.filter_append, filter_of_blanks blankTail, List.append_nil]
        rfl
    _ = cs.filter fun x => !Text.isBlank x := by
        conv => rhs; rw [← List.takeWhile_append_dropWhile (p := Text.isBlank) (l := cs)]
        rw [List.filter_append, filter_of_blanks blankStart, List.nil_append]

/-- Every text that gives a readable certificate is read as the certificate. -/
theorem decode_givenBy {bs : Bytes} (h : ofBytes? bs = some c) {text : String}
    (given : c.GivenBy text) (role : String) : decode text role = .ok c := by
  have readable := ofBytes?_encoded h
  cases given with
  | @pem label block before after known written blankBefore blankAfter split =>
    obtain ⟨trimmed, marked⟩ := trimChars_writtenAs written
    rw [decode, split, Text.trimChars_of_blanks blankBefore blankAfter, trimmed, if_pos marked,
      ofPem?_writtenAs known readable written]
    rfl
  | base64 written =>
    rw [← filter_trimChars] at written
    rw [decode, not_pem_of_base64 written, written, Base64.decodeChars_encodeChars]
    simp only [Bool.false_eq_true, if_false, readable]
    rfl

end Certificate

end HostTrust
