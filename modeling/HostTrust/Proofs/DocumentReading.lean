/-
HostTrust.Proofs.DocumentReading — what a measurement document says, and how
reading it token by token finds that out.

A token can say three things (`Statement`): that a document begins, that it has
an entry, what its cumulative digest is. What a token says depends on the
element whose text is being read, and on nothing else (`said`, `next`). The
document is what the statements make of it, in order (`tell`); the first of them
has to begin it. So reading falls apart in two: `step_eq_ok_iff` is one token,
`foldlM_step_eq_ok_iff` a run over many, and `parse_eq_ok_iff` a whole text.
-/
import HostTrust.Proofs.Elements
import HostTrust.Proofs.Outcome

namespace HostTrust.MeasurementLog

open Outcome

/-! ## Tags and texts -/

/-- The element is a document. -/
def isDocument (tag : Xml.Tag) : Bool := Xml.localName tag.name == "Measurement".toList

/-- The element holds the cumulative digest. -/
def isCumulativeHash (tag : Xml.Tag) : Bool := Xml.localName tag.name == "CumulativeHash".toList

/-- The element is an entry. -/
def isEntry (tag : Xml.Tag) : Bool := (MeasuredKind.ofElement? (Xml.localName tag.name)).isSome

/-- The entry that begins with a tag, if it is one and its attributes can be read. -/
def measurement? (tag : Xml.Tag) : Option Measurement := do
  let kind ← MeasuredKind.ofElement? (Xml.localName tag.name)
  (entryOfTag kind tag).toOption

/-- What a tag can begin. -/
inductive Begun where
  | document (log : MeasurementLog)
  | entry (m : Measurement)
  | cumulativeHash
  | other
  deriving DecidableEq, Repr

namespace Begun

/-- The element whose text is read next. -/
def pending : Begun → Option Pending
  | .entry m => some (.entry m)
  | .cumulativeHash => some .cumulativeHash
  | .document _ | .other => none

/-- The document, if one begins. -/
def document? : Begun → Option MeasurementLog
  | .document log => some log
  | .entry _ | .cumulativeHash | .other => none

/-- The entry, if one begins. -/
def measurement? : Begun → Option Measurement
  | .entry m => some m
  | .document _ | .cumulativeHash | .other => none

end Begun

/-- What a tag begins, if its attributes can be read. -/
def begins (tag : Xml.Tag) : Except MeasurementLogError Begun := do
  if isDocument tag then return .document (← ofTag tag)
  else if isCumulativeHash tag then return .cumulativeHash
  else
    match MeasuredKind.ofElement? (Xml.localName tag.name) with
    | some kind => return .entry (← entryOfTag kind tag)
    | none => return .other

/-- What a tag begins, where it can be read. -/
def begun (tag : Xml.Tag) : Begun := (begins tag).toOption.getD .other

/-- Character data as text, where it can be read. -/
def textOf (raw : List Char) : String := String.ofList (Text.trimChars ((Xml.expand raw).getD []))

/-- The token can be read. Where it stands does not matter. -/
def Readable : Xml.Token → Prop
  | .opening tag | .lone tag => ∃ b, begins tag = .ok b
  | .data raw => ∃ chars, Xml.expand raw = some chars
  | .closing | .aside => True
  | .broken => False

/-! ## Statements -/

/-- What a document can say. -/
inductive Statement where
  | document (log : MeasurementLog)
  | entry (m : Measurement)
  | digest (text : String)
  deriving DecidableEq, Repr

/-- The entry of a statement, if it has one. -/
def Statement.measurement? : Statement → Option Measurement
  | .entry m => some m
  | .document _ | .digest _ => none

/-- The document of a statement, if it begins one. -/
def Statement.document? : Statement → Option MeasurementLog
  | .document log => some log
  | .entry _ | .digest _ => none

/-- What a start tag says. -/
def Begun.opening : Begun → List Statement
  | .document log => [.document log]
  | .entry _ | .cumulativeHash | .other => []

/-- What the tag of an element without content says. -/
def Begun.whole : Begun → List Statement
  | .document log => [.document log]
  | .entry m => [.entry m]
  | .cumulativeHash | .other => []

/-- What a token says while the text of an element is being read. -/
def said (p : Option Pending) : Xml.Token → List Statement
  | .opening tag => (begun tag).opening
  | .lone tag => (begun tag).whole
  | .closing =>
    match p with
    | some (.entry m) => [.entry m]
    | _ => []
  | .data raw =>
    match p with
    | some .cumulativeHash => [.digest (textOf raw)]
    | _ => []
  | .aside | .broken => []

/-- The element whose text is being read after a token. Any start tag and any end tag puts
another one in its place, or none. -/
def next (p : Option Pending) : Xml.Token → Option Pending
  | .opening tag => (begun tag).pending
  | .closing => none
  | .data raw =>
    match p with
    | some (.entry m) => some (.entry { m with value := textOf raw })
    | p => p
  | .lone _ | .aside | .broken => p

/-- What tokens say, in order. -/
def statements (p : Option Pending) : List Xml.Token → List Statement
  | [] => []
  | t :: ts => said p t ++ statements (next p t) ts

/-- The document with a statement. All but the beginning of a document need one. -/
def tell (document : Option MeasurementLog) :
    Statement → Except MeasurementLogError (Option MeasurementLog)
  | .document log => return some log
  | .entry m => return some (← addEntry document m)
  | .digest text =>
    match document with
    | some d => return some { d with cumulativeHash := some text }
    | none => throw .entryOutside

@[simp] theorem tell_document (document : Option MeasurementLog) (log : MeasurementLog) :
    tell document (.document log) = .ok (some log) := rfl

/-! ## Reading -/

variable {p q : Progress}

theorem enter_eq (p : Progress) (tag : Xml.Tag) : p.enter tag = do
    let b ← begins tag
    return ⟨b.document?.or p.document, b.pending⟩ := by
  simp only [Progress.enter, begins, isDocument, isCumulativeHash, beq_iff_eq]
  -- What the names are does not matter here, only which of them it is.
  generalize Xml.localName tag.name = name, "Measurement".toList = root,
    "CumulativeHash".toList = hash
  split
  · cases ofTag tag <;> rfl
  · split
    · rfl
    · cases MeasuredKind.ofElement? name with
      | none => rfl
      | some kind =>
        simp only
        cases entryOfTag kind tag <;> rfl

theorem foldlM_opening (b : Begun) (document : Option MeasurementLog) :
    b.opening.foldlM tell document = .ok (b.document?.or document) := by
  cases b <;> rfl

theorem begun_eq_of_begins {tag : Xml.Tag} {b : Begun} (h : begins tag = .ok b) :
    begun tag = b := by
  rw [begun, h]
  rfl

theorem exists_begins_iff {tag : Xml.Tag} {P : Begun → Prop} :
    (∃ b, begins tag = .ok b ∧ P b) ↔ (∃ b, begins tag = .ok b) ∧ P (begun tag) := by
  constructor
  · rintro ⟨b, h, holds⟩
    exact ⟨⟨b, h⟩, begun_eq_of_begins h ▸ holds⟩
  · rintro ⟨⟨b, h⟩, holds⟩
    exact ⟨b, h, begun_eq_of_begins h ▸ holds⟩

/-- A token is taken exactly if it can be read and the document can be told what it says. -/
theorem step_eq_ok_iff {t : Xml.Token} :
    p.step t = .ok q ↔ Readable t ∧ (said p.pending t).foldlM tell p.document = .ok q.document ∧
      next p.pending t = q.pending := by
  obtain ⟨document, pending⟩ := p
  obtain ⟨document', pending'⟩ := q
  cases t with
  | opening tag =>
    simp only [Progress.step, enter_eq, Readable, said, next, foldlM_opening, bind_eq_ok_iff,
      pure_eq_ok_iff, exists_begins_iff, Progress.mk.injEq, Except.ok.injEq]
  | lone tag =>
    simp only [Progress.step, enter_eq, Readable, said, next, bind_assoc, pure_bind]
    rw [bind_eq_ok_iff, exists_begins_iff]
    refine and_congr_right fun _ => ?_
    cases begun tag <;> simp [Begun.pending, Begun.document?, Begun.whole, tell, ← and_assoc]
  | closing =>
    rcases pending with _ | _ | _ <;>
      simp [Progress.step, Readable, said, next, tell, ← and_assoc]
  | data raw =>
    cases expanded : Xml.expand raw with
    | none => simp [Progress.step, Readable, expanded]
    | some chars =>
      rcases pending with _ | _ | _ <;> cases document <;>
        simp [Progress.step, Readable, said, next, tell, textOf, expanded]
  | aside => simp [Progress.step, Readable, said, next]
  | broken => simp [Progress.step, Readable]

theorem statements_append (p : Option Pending) (ts us : List Xml.Token) :
    statements p (ts ++ us) = statements p ts ++ statements (ts.foldl next p) us := by
  induction ts generalizing p with
  | nil => rfl
  | cons t ts ih => simp [statements, ih]

/-- Tokens are taken exactly if each can be read and the document can be told, in order, what they
say. -/
theorem foldlM_step_eq_ok_iff {ts : List Xml.Token} :
    ts.foldlM Progress.step p = .ok q ↔ (∀ t ∈ ts, Readable t) ∧
      (statements p.pending ts).foldlM tell p.document = .ok q.document ∧
      ts.foldl next p.pending = q.pending := by
  induction ts generalizing p with
  | nil =>
    obtain ⟨document, pending⟩ := p
    obtain ⟨document', pending'⟩ := q
    simp [statements]
  | cons t ts ih =>
    simp only [List.foldlM_cons, bind_eq_ok_iff, step_eq_ok_iff, ih, List.forall_mem_cons,
      statements, List.foldlM_append, List.foldl_cons]
    constructor
    · rintro ⟨r, ⟨readable, here, pending⟩, later_readable, later, last⟩
      rw [← pending] at later last
      exact ⟨⟨readable, later_readable⟩, ⟨r.document, here, later⟩, last⟩
    · rintro ⟨⟨readable, later_readable⟩, ⟨document, here, later⟩, last⟩
      exact ⟨⟨document, next p.pending t⟩, ⟨readable, here, rfl⟩, later_readable, later, last⟩

/-! ## What the statements make of a document -/

/-- A document that has begun, with a statement. -/
def amend (d : MeasurementLog) : Statement → MeasurementLog
  | .document log => log
  | .entry m => { d with measurements := d.measurements ++ [m] }
  | .digest text => { d with cumulativeHash := some text }

theorem tell_some (d : MeasurementLog) (s : Statement) :
    tell (some d) s = .ok (some (amend d s)) := by
  cases s <;> rfl

theorem foldlM_tell_some (d : MeasurementLog) (ss : List Statement) :
    ss.foldlM tell (some d) = .ok (some (ss.foldl amend d)) := by
  induction ss generalizing d with
  | nil => rfl
  | cons s ss ih =>
    rw [List.foldlM_cons, tell_some]
    exact ih (amend d s)

theorem foldlM_tell_none_eq_ok_iff {ss : List Statement} {d : MeasurementLog} :
    ss.foldlM tell none = .ok (some d) ↔
      ∃ log rest, ss = .document log :: rest ∧ rest.foldl amend log = d := by
  rcases ss with _ | ⟨_ | _ | _, ss⟩
  case cons.document log =>
    rw [List.foldlM_cons, tell_document]
    change ss.foldlM tell (some log) = .ok (some d) ↔ _
    simp [foldlM_tell_some]
  all_goals simp [tell, addEntry]

/-- A text is read exactly if all of it can be read and the first thing it says is that a document
begins. -/
theorem parse_eq_ok_iff {xml : String} {d : MeasurementLog} :
    parse xml = .ok d ↔ (∀ t ∈ Xml.tokens xml, Readable t) ∧
      ∃ log rest, statements none (Xml.tokens xml) = .document log :: rest ∧
        rest.foldl amend log = d := by
  rw [← foldlM_tell_none_eq_ok_iff, parse, bind_eq_ok_iff]
  constructor
  · rintro ⟨⟨document, pending⟩, read, found⟩
    obtain ⟨readable, told, -⟩ := foldlM_step_eq_ok_iff.mp read
    cases document with
    | none => simp at found
    | some d' =>
      obtain rfl : d' = d := by simpa using found
      exact ⟨readable, told⟩
  · rintro ⟨readable, told⟩
    exact ⟨⟨some d, _⟩, foldlM_step_eq_ok_iff.mpr ⟨readable, told, rfl⟩, rfl⟩

/-- What can be read is XML throughout. -/
theorem exists_document_of_readable {xml : String} (readable : ∀ t ∈ Xml.tokens xml, Readable t) :
    ∃ D, Xml.document? xml = some D := by
  refine Option.ne_none_iff_exists'.mp fun none => ?_
  exact readable _ (Xml.document?_eq_none_iff.mp none)

/-! ## What tags begin -/

/-- The names of the elements differ. -/
theorem ofElement?_eq_none {tag : Xml.Tag}
    (h : isDocument tag = true ∨ isCumulativeHash tag = true) :
    MeasuredKind.ofElement? (Xml.localName tag.name) = none := by
  rcases h with h | h
  · rw [beq_iff_eq.mp h]
    decide
  · rw [beq_iff_eq.mp h]
    decide

theorem measurement?_begun (tag : Xml.Tag) : (begun tag).measurement? = measurement? tag := by
  unfold begun begins measurement?
  split
  case isTrue h =>
    rw [ofElement?_eq_none (.inl h)]
    cases ofTag tag <;> rfl
  case isFalse =>
    split
    case isTrue h =>
      rw [ofElement?_eq_none (.inr h)]
      rfl
    case isFalse =>
      cases MeasuredKind.ofElement? (Xml.localName tag.name) with
      | none => rfl
      | some kind =>
        simp only [Option.bind_eq_bind, Option.bind_some]
        cases entryOfTag kind tag <;> rfl

theorem document?_begun (tag : Xml.Tag) : (begun tag).document? =
    if isDocument tag then (ofTag tag).toOption else none := by
  unfold begun begins
  split
  · cases ofTag tag <;> rfl
  · split
    · rfl
    · cases MeasuredKind.ofElement? (Xml.localName tag.name) with
      | none => rfl
      | some kind =>
        simp only
        cases entryOfTag kind tag <;> rfl

theorem measurements_of_ofTag {tag : Xml.Tag} {log : MeasurementLog} (h : ofTag tag = .ok log) :
    log.measurements = [] := by
  unfold ofTag at h
  obtain ⟨text, -, h⟩ := bind_eq_ok_iff.mp h
  cases text with
  | none => simp at h
  | some text =>
    simp only at h
    split at h
    · simp at h
    · obtain ⟨label, -, h⟩ := bind_eq_ok_iff.mp h
      obtain ⟨algorithm, -, h⟩ := bind_eq_ok_iff.mp h
      obtain rfl := pure_eq_ok_iff.mp h
      rfl

theorem value_of_entryOfTag {kind : MeasuredKind} {tag : Xml.Tag} {m : Measurement}
    (h : entryOfTag kind tag = .ok m) : m.value = "" := by
  unfold entryOfTag at h
  obtain ⟨path, -, h⟩ := bind_eq_ok_iff.mp h
  cases path with
  | none => simp at h
  | some path =>
    obtain ⟨includes, -, h⟩ := bind_eq_ok_iff.mp h
    obtain ⟨excludes, -, h⟩ := bind_eq_ok_iff.mp h
    obtain rfl := pure_eq_ok_iff.mp h
    rfl

/-! ## What is being read behind some content -/

/-- An element whose text is being read, behind runs of character data. -/
def Pending.withTexts (texts : List (List Char)) : Pending → Pending
  | .entry m => .entry { m with value := (texts.getLast?.map textOf).getD m.value }
  | .cumulativeHash => .cumulativeHash

@[simp] theorem Pending.withTexts_nil (p : Pending) : p.withTexts [] = p := by
  cases p <;> rfl

theorem Pending.withTexts_cons (raw : List Char) (texts : List (List Char)) :
    withTexts (raw :: texts) = withTexts texts ∘ withTexts [raw] := by
  funext p
  cases p with
  | entry m =>
    simp only [Function.comp_apply, withTexts, List.getLast?_cons, Option.map_some,
      Option.getD_some]
    cases texts.getLast? <;> rfl
  | cumulativeHash => rfl

/-- An element with an end tag leaves nothing to read the text of. -/
theorem foldl_next_tokens (c : Xml.Content) (p : Option Pending) :
    c.tokens.foldl next p = if c.hasPair then none else p.map (Pending.withTexts c.texts) := by
  induction c generalizing p with
  | nil => cases p <;> simp [Xml.Content.tokens, Xml.Content.hasPair, Xml.Content.texts]
  | element tag inside rest inside_ih rest_ih =>
    simp [Xml.Content.tokens, Xml.Content.hasPair, next, rest_ih]
  | lone tag rest ih => exact ih p
  | data raw rest ih =>
    have here : next p (.data raw) = p.map (Pending.withTexts [raw]) := by
      rcases p with _ | _ | _ <;> rfl
    rw [Xml.Content.tokens, List.foldl_cons, ih, here, Option.map_map, ← Pending.withTexts_cons]
    rfl
  | aside rest ih => exact ih p

theorem foldl_next_none (c : Xml.Content) : c.tokens.foldl next none = none := by
  rw [foldl_next_tokens]
  exact ite_self none

theorem statements_element (tag : Xml.Tag) (inside rest : Xml.Content) (p : Option Pending) :
    statements p (Xml.Content.element tag inside rest).tokens =
      (begun tag).opening ++ (statements (begun tag).pending inside.tokens ++
        (said (inside.tokens.foldl next (begun tag).pending) .closing ++
          statements none rest.tokens)) := by
  rw [Xml.Content.tokens, statements, statements_append]
  rfl

/-! ## Documents among the statements -/

/-- Every tag of a document says so, wherever it stands. -/
theorem documents_statements (p : Option Pending) (ts : List Xml.Token) :
    (statements p ts).filterMap Statement.document? =
      (ts.filterMap Xml.Token.tag?).filterMap fun tag => (begun tag).document? := by
  induction ts generalizing p with
  | nil => rfl
  | cons t ts ih =>
    rw [statements, List.filterMap_append, ih]
    cases t with
    | opening tag | lone tag =>
      simp only [said, Xml.Token.tag?, List.filterMap_cons]
      cases begun tag <;> rfl
    | closing | data =>
      rcases p with _ | _ | _ <;> rfl
    | aside | broken => rfl

theorem isSome_document?_begun {tag : Xml.Tag} (readable : ∃ b, begins tag = .ok b) :
    (begun tag).document?.isSome = isDocument tag := by
  obtain ⟨b, hb⟩ := readable
  rw [document?_begun]
  cases root : isDocument tag with
  | false => rfl
  | true =>
    rw [begins, if_pos root] at hb
    obtain ⟨log, hlog, -⟩ := bind_eq_ok_iff.mp hb
    simp [hlog, Except.toOption]

theorem isSome_measurement? {tag : Xml.Tag} (readable : ∃ b, begins tag = .ok b) :
    (measurement? tag).isSome = isEntry tag := by
  obtain ⟨b, hb⟩ := readable
  cases named : MeasuredKind.ofElement? (Xml.localName tag.name) with
  | none => simp [measurement?, isEntry, named]
  | some kind =>
    have notDocument : ¬ isDocument tag = true := fun h => by
      simp [ofElement?_eq_none (.inl h)] at named
    have notHash : ¬ isCumulativeHash tag = true := fun h => by
      simp [ofElement?_eq_none (.inr h)] at named
    rw [begins, if_neg notDocument, if_neg notHash, named] at hb
    obtain ⟨m, hm, -⟩ := bind_eq_ok_iff.mp hb
    simp [measurement?, isEntry, named, hm, Except.toOption]

theorem measurements_of_document? {tag : Xml.Tag} {log : MeasurementLog}
    (h : (begun tag).document? = some log) : log.measurements = [] := by
  rw [document?_begun] at h
  split at h
  · exact measurements_of_ofTag (toOption_eq_some_iff.mp h)
  · cases h

/-- Where the tokens can be read, so can the tags. -/
theorem exists_begins_of_mem {ts : List Xml.Token} (readable : ∀ t ∈ ts, Readable t)
    {tag : Xml.Tag} (h : tag ∈ ts.filterMap Xml.Token.tag?) : ∃ b, begins tag = .ok b := by
  obtain ⟨t, ht, here⟩ := List.mem_filterMap.mp h
  have readable_here := readable t ht
  cases t with
  | opening | lone =>
    obtain rfl := Option.some.inj here
    exact readable_here
  | closing | data | aside | broken => cases here

/-- As many documents are stated as there are elements of that name. -/
theorem length_documents_statements {ts : List Xml.Token} (readable : ∀ t ∈ ts, Readable t)
    (p : Option Pending) : ((statements p ts).filterMap Statement.document?).length =
      (ts.filterMap Xml.Token.tag?).countP isDocument := by
  rw [documents_statements, List.length_filterMap_eq_countP]
  exact List.countP_congr fun tag found => by
    rw [isSome_document?_begun (exists_begins_of_mem readable found)]

end HostTrust.MeasurementLog
