/-
HostTrust.Proofs.WrittenDocument — measurement documents as they may be written,
and that reading gives them back.

A document leaves its writer many choices: qualifiers, the order of attributes,
kinds of quotes, blanks, an instruction in front, an empty element as one tag or
two. `DocumentStyle` is one way to make them all, `DocumentStyle.text` is what is
written. Its tokens come piece by piece (`Xml.Cuts`), and each piece says what it
should (`Says`): the root that the document begins, an element of an entry that
entry, the last element the cumulative digest, all else nothing. The entries are
a list, so what they say is found by induction on it (`cuts_entries`).
-/
import HostTrust.Proofs.DocumentReading
import HostTrust.Proofs.MarkupTokens

namespace HostTrust

open Xml

/-! ## What is written -/

/-- An attribute that may be missing. -/
def optionalAttribute (name : String) (value : Option String) : List (String × String) :=
  value.toList.map (name, ·)

def MeasuredKind.element : MeasuredKind → String
  | .directory => "Dir"
  | .file => "File"
  | .symlink => "Symlink"

def Measurement.attributes (m : Measurement) : List (String × String) :=
  ("Path", m.path) :: optionalAttribute "Include" m.includes ++
    optionalAttribute "Exclude" m.excludes

namespace MeasurementLog

/-- The attributes of a document whose identifier is written as this text. -/
def attributes (d : MeasurementLog) (uuid : String) : List (String × String) :=
  ("Label", d.label) :: ("Uuid", uuid) :: optionalAttribute "DigestAlg" d.digestAlgorithm

/-- An entry, how it is written, and the blanks in front of it. -/
structure WrittenEntry where
  gap : Gap
  entry : Measurement
  style : ElementStyle entry.attributes entry.value

/-- A cumulative digest, how it is written, and the blanks in front of it. -/
structure WrittenDigest where
  gap : Gap
  digest : String
  style : ElementStyle [] digest

/-- What an instruction in front of the document says. -/
structure Declaration where
  content : List Char
  inside : '>' ∉ content
  /-- The blanks behind it. -/
  gap : Gap

/-- How a document is written. -/
structure DocumentStyle (d : MeasurementLog) where
  front : Gap
  declaration : Option Declaration
  uuid : String
  uuid_reads : Uuid.ofText? uuid = some d.uuid
  root : TagStyle (d.attributes uuid)
  entries : List WrittenEntry
  entries_eq : entries.map WrittenEntry.entry = d.measurements
  digest : Option WrittenDigest
  digest_eq : digest.map WrittenDigest.digest = d.cumulativeHash
  /-- The blanks in front of the last end tag, in it and behind it. -/
  last : Gap
  tail : Gap
  behind : Gap

def WrittenEntry.chars (e : WrittenEntry) : List Char :=
  e.gap.chars ++ e.style.chars e.entry.kind.element

def WrittenDigest.chars (h : WrittenDigest) : List Char :=
  h.gap.chars ++ h.style.chars "CumulativeHash"

def Declaration.chars (i : Declaration) : List Char :=
  '<' :: '?' :: (i.content ++ ['?', '>']) ++ i.gap.chars

namespace DocumentStyle

variable {d : MeasurementLog} (s : DocumentStyle d)

/-- What stands in the root element. -/
def inside : List Char :=
  s.entries.flatMap WrittenEntry.chars ++ (s.digest.elim [] WrittenDigest.chars ++ s.last.chars)

def element : List Char :=
  '<' :: (s.root.content "Measurement" ++ ['>']) ++ (s.inside ++
    '<' :: '/' :: (qualified s.root.qualifier "Measurement".toList ++ s.tail.chars ++ ['>']))

def chars : List Char :=
  s.front.chars ++ (s.declaration.elim [] Declaration.chars ++ (s.element ++ s.behind.chars))

/-- The document as it is written. -/
def text : String := String.ofList s.chars

end DocumentStyle

/-! ## Attributes -/

theorem sublist_optionalAttribute (name : String) (value : Option String) :
    ((optionalAttribute name value).map Prod.fst).Sublist [name] := by
  cases value <;> simp [optionalAttribute]

@[simp] theorem lookup_optionalAttribute (name wanted : String) (value : Option String) :
    (optionalAttribute name value).lookup wanted = if wanted = name then value else none := by
  cases value with
  | none => exact (ite_self none).symm
  | some value => exact Sorted.lookup_cons (name, value) [] wanted

theorem named_entry (m : Measurement) : Named m.attributes := by
  have names : (m.attributes.map Prod.fst).Sublist ["Path", "Include", "Exclude"] := by
    simp only [Measurement.attributes, List.map_append, List.map_cons]
    exact ((sublist_optionalAttribute "Include" _).cons_cons "Path").append
      (sublist_optionalAttribute "Exclude" _)
  exact .of_sublist names (by decide) (by decide)

theorem named_document (d : MeasurementLog) (uuid : String) : Named (d.attributes uuid) := by
  have names : ((d.attributes uuid).map Prod.fst).Sublist ["Label", "Uuid", "DigestAlg"] := by
    simp only [attributes, List.map_cons]
    exact ((sublist_optionalAttribute "DigestAlg" _).cons_cons "Uuid").cons_cons "Label"
  exact .of_sublist names (by decide) (by decide)

theorem named_nil : Named [] := ⟨by simp, .nil⟩

theorem isName_element (kind : MeasuredKind) : IsName kind.element.toList := by
  cases kind <;> decide

/-! ## What the tags begin -/

theorem attribute?_eq {attributes : List (String × String)} (s : TagStyle attributes)
    (named : Named attributes) (name wanted : String) :
    attribute? (s.tag name) wanted = .ok (attributes.lookup wanted) := by
  rw [attribute?, s.attribute?_tag named]
  rfl

theorem localName_tag {attributes : List (String × String)} (s : TagStyle attributes)
    {name : String} (isName : IsName name.toList) :
    localName (s.tag name).name = name.toList := localName_qualified isName

theorem begins_document {d : MeasurementLog} {uuid : String} (s : TagStyle (d.attributes uuid))
    (reads : Uuid.ofText? uuid = some d.uuid) : begins (s.tag "Measurement") =
      .ok (.document { d with measurements := [], cumulativeHash := none }) := by
  have isRoot : isDocument (s.tag "Measurement") = true := by
    rw [isDocument, localName_tag s (by decide)]
    rfl
  have found := attribute?_eq s (named_document d uuid) "Measurement"
  have identified : (d.attributes uuid).lookup "Uuid" = some uuid := by
    simp [attributes, Sorted.lookup_cons]
  have labelled : (d.attributes uuid).lookup "Label" = some d.label := rfl
  have algorithm : (d.attributes uuid).lookup "DigestAlg" = d.digestAlgorithm := by
    simp [attributes, Sorted.lookup_cons]
  rw [begins, if_pos isRoot, ofTag]
  simp only [found, identified, labelled, algorithm, reads, bind, Except.bind]
  rfl

theorem begins_entry {m : Measurement} (s : TagStyle m.attributes) :
    begins (s.tag m.kind.element) = .ok (.entry { m with value := "" }) := by
  have name := localName_tag s (isName_element m.kind)
  have notRoot : isDocument (s.tag m.kind.element) = false := by
    rw [isDocument, name]
    cases m.kind <;> rfl
  have notDigest : isCumulativeHash (s.tag m.kind.element) = false := by
    rw [isCumulativeHash, name]
    cases m.kind <;> rfl
  have kind : MeasuredKind.ofElement? m.kind.element.toList = some m.kind := by
    cases m.kind <;> decide
  have found := attribute?_eq s (named_entry m) m.kind.element
  have path : m.attributes.lookup "Path" = some m.path := rfl
  have includes : m.attributes.lookup "Include" = m.includes := by
    simp [Measurement.attributes, Sorted.lookup_cons, List.lookup_append]
  have excludes : m.attributes.lookup "Exclude" = m.excludes := by
    simp [Measurement.attributes, Sorted.lookup_cons, List.lookup_append]
  rw [begins, notRoot, notDigest, name, kind]
  simp only [entryOfTag, found, path, includes, excludes, bind, Except.bind]
  rfl

theorem begins_digest (s : TagStyle []) :
    begins (s.tag "CumulativeHash") = .ok .cumulativeHash := by
  have isName : IsName "CumulativeHash".toList := by decide
  have name := localName_tag s isName
  have notRoot : isDocument (s.tag "CumulativeHash") = false := by
    rw [isDocument, name]
    rfl
  have isDigest : isCumulativeHash (s.tag "CumulativeHash") = true := by
    rw [isCumulativeHash, name]
    rfl
  rw [begins, notRoot, isDigest]
  rfl

/-! ## What the pieces say -/

/-- Where no text of an element is being read, the tokens say this, and no text is being read behind
them. -/
structure Says (ts : List Token) (ss : List Statement) : Prop where
  readable : ∀ t ∈ ts, Readable t
  states : statements none ts = ss
  pending : ts.foldl next none = none

theorem Says.nil : Says [] [] := ⟨by simp, rfl, rfl⟩

theorem Says.append {ts ts' : List Token} {ss ss' : List Statement} (h : Says ts ss)
    (h' : Says ts' ss') : Says (ts ++ ts') (ss ++ ss') where
  readable := List.forall_mem_append.mpr ⟨h.readable, h'.readable⟩
  states := by rw [statements_append, h.pending, h.states, h'.states]
  pending := by rw [List.foldl_append, h.pending, h'.pending]

theorem Says.aside : Says [.aside] [] := ⟨by simp [Readable], rfl, rfl⟩

theorem Says.closing : Says [.closing] [] := ⟨by simp [Readable], rfl, rfl⟩

theorem textOf_escape {text : String} (trimmed : Text.trim text = text) :
    textOf (escape text.toList) = text := by
  rw [textOf, expand_escape]
  exact trimmed

theorem Says.document {d : MeasurementLog} {uuid : String} (s : TagStyle (d.attributes uuid))
    (reads : Uuid.ofText? uuid = some d.uuid) : Says [.opening (s.tag "Measurement")]
      [.document { d with measurements := [], cumulativeHash := none }] := by
  have starts := begins_document s reads
  have begun_here := begun_eq_of_begins starts
  refine ⟨?_, ?_, ?_⟩
  · simpa using ⟨_, starts⟩
  · simp [statements, said, begun_here, Begun.opening]
  · simp [next, begun_here, Begun.pending]

theorem Says.entry {m : Measurement} (s : ElementStyle m.attributes m.value)
    (trimmed : Text.trim m.value = m.value) : Says (s.tokens m.kind.element) [.entry m] := by
  have starts := begins_entry s.tag
  have begun_here := begun_eq_of_begins starts
  have same : { m with value := m.value } = m := rfl
  unfold ElementStyle.tokens
  cases s.body with
  | lone empty =>
    refine ⟨by simpa using ⟨_, starts⟩, ?_, rfl⟩
    simp [statements, said, begun_here, Begun.whole, ← empty]
  | pair =>
    dsimp only
    split
    case isTrue empty =>
      refine ⟨by simpa [Readable] using ⟨_, starts⟩, ?_, rfl⟩
      simp [statements, said, next, begun_here, Begun.opening, Begun.pending, ← empty]
    case isFalse =>
      refine ⟨by simpa [Readable, expand_escape] using ⟨_, starts⟩, ?_, rfl⟩
      simp [statements, said, next, begun_here, Begun.opening, Begun.pending,
        textOf_escape trimmed]

theorem Says.digest {text : String} (s : ElementStyle [] text) (trimmed : Text.trim text = text)
    (some_text : text ≠ "") : Says (s.tokens "CumulativeHash") [.digest text] := by
  have starts := begins_digest s.tag
  have begun_here := begun_eq_of_begins starts
  unfold ElementStyle.tokens
  cases s.body with
  | lone empty => exact absurd empty some_text
  | pair =>
    dsimp only
    rw [if_neg some_text]
    refine ⟨by simpa [Readable, expand_escape] using ⟨_, starts⟩, ?_, rfl⟩
    simp [statements, said, next, begun_here, Begun.opening, Begun.pending, textOf_escape trimmed]

/-! ## Pieces of a document -/

/-- Some characters leave the open elements as they are, and their tokens say this. -/
def Spells (cs : List Char) (ss : List Statement) : Prop :=
  ∀ unclosed, ∃ ts, Cuts unclosed cs ts unclosed ∧ Says ts ss

theorem Spells.append {cs cs' : List Char} {ss ss' : List Statement} (h : Spells cs ss)
    (h' : Spells cs' ss') : Spells (cs ++ cs') (ss ++ ss') := by
  intro unclosed
  obtain ⟨ts, cuts, said⟩ := h unclosed
  obtain ⟨ts', cuts', said'⟩ := h' unclosed
  exact ⟨ts ++ ts', cuts.append cuts', said.append said'⟩

theorem Spells.nil : Spells [] [] := fun _ => ⟨[], .nil, .nil⟩

theorem Spells.gap (g : Gap) : Spells g.chars [] := fun _ => ⟨[], .gap g, .nil⟩

theorem spells_declaration (i : Declaration) : Spells i.chars [] := by
  have instruction : Spells ('<' :: '?' :: (i.content ++ ['?', '>'])) [] := fun _ =>
    ⟨_, .instruction i.inside, .aside⟩
  exact instruction.append (.gap i.gap)

theorem spells_entry (e : WrittenEntry) (trimmed : Text.trim e.entry.value = e.entry.value) :
    Spells e.chars [.entry e.entry] := by
  have element : Spells (e.style.chars e.entry.kind.element) [.entry e.entry] := fun _ =>
    ⟨_, e.style.cuts (isName_element _) (named_entry _) trimmed, .entry e.style trimmed⟩
  exact (Spells.gap e.gap).append element

theorem spells_digest (h : WrittenDigest) (trimmed : Text.trim h.digest = h.digest)
    (some_text : h.digest ≠ "") : Spells h.chars [.digest h.digest] := by
  have element : Spells (h.style.chars "CumulativeHash") [.digest h.digest] := fun _ =>
    ⟨_, h.style.cuts (by decide) named_nil trimmed, .digest h.style trimmed some_text⟩
  exact (Spells.gap h.gap).append element

/-- Entries that follow each other are said one after the other. -/
theorem spells_entries {entries : List WrittenEntry}
    (trimmed : ∀ e ∈ entries, Text.trim e.entry.value = e.entry.value) :
    Spells (entries.flatMap WrittenEntry.chars)
      (entries.map fun e => Statement.entry e.entry) := by
  induction entries with
  | nil => exact .nil
  | cons e entries ih =>
    rw [List.flatMap_cons]
    have here := spells_entry e (trimmed e (.head _))
    exact here.append (ih fun other h => trimmed other (.tail _ h))

/-! ## The whole document -/

theorem foldl_amend_entries (log : MeasurementLog) (entries : List WrittenEntry) :
    (entries.map fun e => Statement.entry e.entry).foldl amend log =
      { log with measurements := log.measurements ++ entries.map WrittenEntry.entry } := by
  induction entries generalizing log with
  | nil => simp
  | cons e entries ih =>
    rw [List.map_cons, List.foldl_cons, ih]
    simp [amend]

theorem foldl_amend_digest (d : MeasurementLog) :
    (d.cumulativeHash.toList.map Statement.digest).foldl amend
      { d with cumulativeHash := none } = d := by
  obtain ⟨label, uuid, algorithm, measurements, digest⟩ := d
  cases digest <;> rfl

namespace DocumentStyle

variable {d : MeasurementLog} (s : DocumentStyle d)

theorem spells_inside (trimmed : ∀ m ∈ d.measurements, Text.trim m.value = m.value)
    (digest : ∀ h ∈ d.cumulativeHash, Text.trim h = h ∧ h ≠ "") :
    Spells s.inside (s.entries.map (fun e => .entry e.entry) ++
      d.cumulativeHash.toList.map .digest) := by
  have entries : ∀ e ∈ s.entries, Text.trim e.entry.value = e.entry.value := fun e he =>
    trimmed e.entry (s.entries_eq ▸ List.mem_map_of_mem he)
  have last : Spells (s.digest.elim [] WrittenDigest.chars)
      (d.cumulativeHash.toList.map .digest) := by
    rw [← s.digest_eq] at digest ⊢
    cases written : s.digest with
    | none => exact .nil
    | some h =>
      obtain ⟨trimmedDigest, some_text⟩ := digest h.digest (by simp [written])
      exact spells_digest h trimmedDigest some_text
  have behind : Spells (s.digest.elim [] WrittenDigest.chars ++ s.last.chars)
      (d.cumulativeHash.toList.map .digest) := by
    simpa using last.append (.gap s.last)
  exact (spells_entries entries).append behind

theorem spells_element (trimmed : ∀ m ∈ d.measurements, Text.trim m.value = m.value)
    (digest : ∀ h ∈ d.cumulativeHash, Text.trim h = h ∧ h ≠ "") :
    Spells s.element (.document { d with measurements := [], cumulativeHash := none } ::
      (s.entries.map (fun e => .entry e.entry) ++ d.cumulativeHash.toList.map .digest)) := by
  intro unclosed
  have isName : IsName "Measurement".toList := by decide
  obtain ⟨ts, cuts, said⟩ := s.spells_inside trimmed digest
    ((s.root.tag "Measurement").name :: unclosed)
  refine ⟨_, (Cuts.opening s.root isName (named_document d s.uuid)).append
    (cuts.append (.closing isName s.tail)), ?_⟩
  have whole := (Says.document s.root s.uuid_reads).append (said.append .closing)
  rwa [List.append_nil] at whole

theorem head?_chars_ne : s.chars.head? ≠ some '\ufeff' := by
  unfold chars
  cases front : s.front.chars with
  | nil => cases s.declaration <;> simp [Declaration.chars, element]
  | cons c blanks =>
    intro marked
    have blank : c ∈ s.front.chars := by simp [front]
    exact s.front.ne_of_mem blank rfl (Option.some.inj marked)

theorem parse_text (trimmed : ∀ m ∈ d.measurements, Text.trim m.value = m.value)
    (digest : ∀ h ∈ d.cumulativeHash, Text.trim h = h ∧ h ≠ "") : parse s.text = .ok d := by
  have front : Spells (s.declaration.elim [] Declaration.chars) [] := by
    cases s.declaration with
    | none => exact .nil
    | some i => exact spells_declaration i
  obtain ⟨ts, cuts, said⟩ := (Spells.gap s.front).append (front.append
    ((s.spells_element trimmed digest).append (.gap s.behind))) []
  have read : tokens s.text = ts := tokens_ofList cuts s.head?_chars_ne
  have states : statements none (tokens s.text) =
      .document { d with measurements := [], cumulativeHash := none } ::
        (s.entries.map (fun e => .entry e.entry) ++ d.cumulativeHash.toList.map .digest) := by
    rw [read, said.states]
    simp
  refine parse_eq_ok_iff.mpr ⟨read ▸ said.readable, _, _, states, ?_⟩
  rw [List.foldl_append, foldl_amend_entries, s.entries_eq]
  exact foldl_amend_digest d

end DocumentStyle

/-! ## Every document can be written -/

/-- An element without qualifiers, as two tags, with its attributes in order and no blanks but one
in front of each of them. -/
def plainElement (attributes : List (String × String)) (text : String) :
    ElementStyle attributes text :=
  ⟨.plain attributes, .pair .none .none .none⟩

/-- A document that is written in that way throughout. -/
def DocumentStyle.plain (d : MeasurementLog) : DocumentStyle d where
  front := .none
  declaration := none
  uuid := d.uuid.display
  uuid_reads := d.uuid.ofText?_display
  root := .plain _
  entries := d.measurements.map fun m => ⟨.none, m, plainElement _ _⟩
  entries_eq := by simp [Function.comp_def]
  digest := d.cumulativeHash.map fun h => ⟨.none, h, plainElement _ _⟩
  digest_eq := by simp [Function.comp_def]
  last := .none
  tail := .none
  behind := .none

/-- **Reading undoes writing.** Every document can be written, and however it is written, it is
what is read back: with its label, identifier and algorithm, its entries in their order and its
cumulative digest. The values of the entries must have no blanks at their ends, nor must the
cumulative digest, which must not be empty; all other texts are any texts. -/
theorem parse_text_eq_ok (d : MeasurementLog)
    (trimmed : ∀ m ∈ d.measurements, Text.trim m.value = m.value)
    (digest : ∀ h ∈ d.cumulativeHash, Text.trim h = h ∧ h ≠ "") :
    Nonempty (DocumentStyle d) ∧ ∀ s : DocumentStyle d, parse s.text = .ok d :=
  ⟨⟨.plain d⟩, fun s => s.parse_text trimmed digest⟩

end MeasurementLog

namespace Sample

open MeasurementLog

/-- A document with a directory and an empty link. -/
def writtenLog : MeasurementLog where
  label := "a&b"
  uuid := .ofByte 0x5F
  digestAlgorithm := none
  measurements := [⟨.directory, "/a", "ab", some "", none⟩, ⟨.symlink, "<", "", none, none⟩]
  cumulativeHash := some "01"

def prefixM : Qualifier := ⟨['m'], by decide⟩

/-- Qualifiers, a changed order of attributes, quotes of both kinds, an element without content as
one tag and an instruction in front. -/
def mixedStyle : DocumentStyle writtenLog where
  front := .none
  declaration := some ⟨"xml".toList, by decide, .one⟩
  uuid := writtenLog.uuid.display
  uuid_reads := writtenLog.uuid.ofText?_display
  root :=
    { qualifier := some prefixM
      written := [(.plain .single, "Uuid", writtenLog.uuid.display),
        (.plain .double, "Label", "a&b")]
      same := .swap ..
      tail := .one }
  entries := [
    ⟨.one, ⟨.directory, "/a", "ab", some "", none⟩,
      { tag :=
          { qualifier := some prefixM
            written := [(.plain .double, "Include", ""),
              ({ AttributeStyle.plain .double with qualifier := some prefixM }, "Path", "/a")]
            same := .swap ..
            tail := .none }
        body := .pair .one .none .one }⟩,
    ⟨.none, ⟨.symlink, "<", "", none, none⟩, .plain _, .lone rfl⟩]
  entries_eq := rfl
  digest := some ⟨.none, "01", plainElement _ _⟩
  digest_eq := rfl
  last := .none
  tail := .none
  behind := .one

/-- A text with all of these is read as the document. -/
theorem mixed_read : parse mixedStyle.text = .ok writtenLog ∧ mixedStyle.chars =
    "<?xml?> <m:Measurement Uuid='5f5f5f5f-5f5f-5f5f-5f5f-5f5f5f5f5f5f' ".toList ++
      "Label=\"a&amp;b\" > ".toList ++
      "<m:Dir Include=\"\" m:Path=\"/a\"> ab</m:Dir ><Symlink Path=\"&lt;\"/>".toList ++
      "<CumulativeHash>01</CumulativeHash></m:Measurement> ".toList :=
  ⟨(parse_text_eq_ok writtenLog (by decide) (by decide)).2 mixedStyle, by decide +kernel⟩

end Sample

end HostTrust
