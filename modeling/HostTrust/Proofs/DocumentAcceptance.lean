/-
HostTrust.Proofs.DocumentAcceptance — which texts are accepted as measurement
documents.

A document is meant to be one `Measurement` element that ends, with all entries
and the cumulative digest inside of it (`Conforms`). What is asked of a text
when it is read is less: that all of it can be read, and that it states nothing
in front of a `Measurement` tag. Nothing asks whether elements end, where that
element ends or whether another one follows (`accepted_iff_opens`). Of a text
that conforms, nothing is asked but that it can be read
(`exists_parse_eq_ok_iff_of_conforms`).
-/
import HostTrust.Proofs.DocumentReading
import HostTrust.VerificationError

namespace HostTrust

namespace MeasurementLog

open Outcome

/-- One `Measurement` element with everything in it, and no element that is left open. -/
structure Conforms (D : Xml.Document) : Prop where
  closed : D.unclosed = []
  one : D.tags.countP isDocument = 1
  inside : ∀ tag ∈ D.content.tagsOutside isDocument,
    isEntry tag = false ∧ isCumulativeHash tag = false

instance (D : Xml.Document) : Decidable (Conforms D) :=
  decidable_of_iff (D.unclosed = [] ∧ D.tags.countP isDocument = 1 ∧
      ∀ tag ∈ D.content.tagsOutside isDocument,
        isEntry tag = false ∧ isCumulativeHash tag = false)
    ⟨fun h => ⟨h.1, h.2.1, h.2.2⟩, fun h => ⟨h.closed, h.one, h.inside⟩⟩

set_option maxRecDepth 2000 in
example : (Xml.document? "<Measurement><File/></Measurement>").any (Conforms ·) = true := by decide

/-- A document begins before anything else is stated. -/
def Opens (ss : List Statement) : Prop := ∃ log rest, ss = .document log :: rest

/-- Only the beginning of a document is stated first. -/
def OpensOrSilent (ss : List Statement) : Prop := ss = [] ∨ Opens ss

theorem OpensOrSilent.append {ss ss' : List Statement} (h : OpensOrSilent ss)
    (h' : OpensOrSilent ss') : OpensOrSilent (ss ++ ss') := by
  rcases h with rfl | ⟨log, rest, rfl⟩
  · exact h'
  · exact .inr ⟨log, rest ++ ss', rfl⟩

/-- A text is accepted if all of it can be read and it first states that a document begins. -/
theorem exists_parse_eq_ok_iff {xml : String} : (∃ d, parse xml = .ok d) ↔
    (∀ t ∈ Xml.tokens xml, Readable t) ∧ Opens (statements none (Xml.tokens xml)) := by
  constructor
  · rintro ⟨d, read⟩
    obtain ⟨readable, log, rest, said, -⟩ := parse_eq_ok_iff.mp read
    exact ⟨readable, log, rest, said⟩
  · rintro ⟨readable, log, rest, said⟩
    exact ⟨_, parse_eq_ok_iff.mpr ⟨readable, log, rest, said, rfl⟩⟩

/-! ## Conforming documents -/

theorem begun_eq_other {tag : Xml.Tag} (notDocument : isDocument tag = false)
    (notEntry : isEntry tag = false) (notHash : isCumulativeHash tag = false) :
    begun tag = .other := by
  have unnamed : MeasuredKind.ofElement? (Xml.localName tag.name) = none := by
    simpa [isEntry] using notEntry
  simp [begun, begins, notDocument, notHash, unnamed, Except.toOption, pure, Except.pure]

theorem begun_eq_document {tag : Xml.Tag} (readable : ∃ b, begins tag = .ok b)
    (root : isDocument tag = true) : ∃ log, begun tag = .document log := by
  have some_document := (isSome_document?_begun readable).trans root
  cases h : begun tag with
  | document log => exact ⟨log, rfl⟩
  | entry | cumulativeHash | other => simp [h, Begun.document?] at some_document

/-- Where entries and digests stand in documents, nothing is stated in front of a document. -/
theorem opensOrSilent_tokens {c : Xml.Content} (readable : ∀ t ∈ c.tokens, Readable t)
    (inside : ∀ tag ∈ c.tagsOutside isDocument,
      isEntry tag = false ∧ isCumulativeHash tag = false) :
    OpensOrSilent (statements none c.tokens) := by
  induction c with
  | nil => exact .inl rfl
  | element tag content rest content_ih rest_ih =>
    rw [statements_element]
    have later : OpensOrSilent (statements none rest.tokens) :=
      rest_ih (fun t ht => readable t (by simp [Xml.Content.tokens, ht])) fun other h =>
        inside other (.tail _ (List.mem_append_right _ h))
    cases root : isDocument tag with
    | true =>
      obtain ⟨log, begins_here⟩ := begun_eq_document (readable _ (.head _)) root
      exact .inr ⟨log, _, by rw [begins_here]; rfl⟩
    | false =>
      obtain ⟨notEntry, notHash⟩ := inside tag (.head _)
      have within : OpensOrSilent (statements none content.tokens) :=
        content_ih (fun t ht => readable t (by simp [Xml.Content.tokens, ht])) fun other h =>
          inside other (.tail _ (List.mem_append_left _ (by rwa [if_neg (by simp [root])])))
      have ended : said (content.tokens.foldl next none) .closing = [] := by
        rw [foldl_next_none]
        rfl
      rw [begun_eq_other root notEntry notHash]
      exact .append (.inl rfl) (within.append (.append (.inl ended) later))
  | lone tag rest ih =>
    have later : OpensOrSilent (statements none rest.tokens) :=
      ih (fun t ht => readable t (.tail _ ht)) fun other h => inside other (.tail _ h)
    cases root : isDocument tag with
    | true =>
      obtain ⟨log, begins_here⟩ := begun_eq_document (readable _ (.head _)) root
      exact .inr ⟨log, statements none rest.tokens, by
        rw [Xml.Content.tokens, statements, said, begins_here]
        rfl⟩
    | false =>
      obtain ⟨notEntry, notHash⟩ := inside tag (.head _)
      rw [Xml.Content.tokens, statements, said, begun_eq_other root notEntry notHash]
      exact later
  | data raw rest ih =>
    exact ih (fun t ht => readable t (.tail _ ht)) inside
  | aside rest ih =>
    exact ih (fun t ht => readable t (.tail _ ht)) inside

/-- A conforming document is accepted if all of it can be read. -/
theorem exists_parse_eq_ok_iff_of_conforms {xml : String} {D : Xml.Document}
    (written : Xml.document? xml = some D) (conforms : Conforms D) :
    (∃ d, parse xml = .ok d) ↔ ∀ t ∈ D.tokens, Readable t := by
  rw [exists_parse_eq_ok_iff, Xml.document?_eq_some_iff.mp written, and_iff_left_iff_imp]
  intro readable
  have tokens : D.tokens = D.content.tokens := by
    simp [Xml.Document.tokens, conforms.closed, Xml.unclosedTokens]
  have count := length_documents_statements readable none
  have one : (D.tokens.filterMap Xml.Token.tag?).countP isDocument = 1 := conforms.one
  rw [tokens] at readable count one ⊢
  rcases opensOrSilent_tokens readable conforms.inside with silent | opens
  · simp [silent, one] at count
  · exact opens

/-! ## Accepted texts -/

/-- What is accepted has a document. -/
theorem Opens.countP_pos {D : Xml.Document} (readable : ∀ t ∈ D.tokens, Readable t)
    (h : Opens (statements none D.tokens)) : 1 ≤ D.tags.countP isDocument := by
  obtain ⟨log, rest, said⟩ := h
  have count := length_documents_statements readable none
  rw [said] at count
  exact count ▸ Nat.succ_le_succ (Nat.zero_le _)

/-- What the beginning of an accepted text says. -/
theorem Opens.of_append {ss ss' : List Statement} (h : Opens (ss ++ ss')) (said : ss ≠ []) :
    Opens ss := by
  obtain ⟨log, rest, all⟩ := h
  cases ss with
  | nil => exact absurd rfl said
  | cons s ss =>
    obtain ⟨rfl, -⟩ := List.cons.inj all
    exact ⟨log, ss, rfl⟩

/-- A text that another one goes on from is accepted as soon as it states anything. -/
theorem exists_parse_eq_ok_iff_of_append {xml cut : String} {later : List Xml.Token}
    (whole : Xml.tokens xml = Xml.tokens cut ++ later) (accepted : ∃ d, parse xml = .ok d) :
    (∃ d, parse cut = .ok d) ↔ statements none (Xml.tokens cut) ≠ [] := by
  rw [exists_parse_eq_ok_iff, whole, statements_append] at accepted
  rw [exists_parse_eq_ok_iff]
  constructor
  · rintro ⟨-, log, rest, said⟩ silent
    rw [said] at silent
    cases silent
  · exact fun said => ⟨fun t ht => accepted.1 t (List.mem_append_left _ ht),
      accepted.2.of_append said⟩

end MeasurementLog

namespace Sample

open Outcome MeasurementLog

/-- A document with one file that is cut off in front of its end. -/
def cutText : String :=
  "<Measurement Uuid=\"5f5f5f5f-5f5f-5f5f-5f5f-5f5f5f5f5f5f\"><File Path=\"/a\">ab</File>"

end Sample

end HostTrust
