/-
HostTrust.Proofs.MeasuredEntries — which elements of a document are among its
measurements.

While a document is read, one place holds the entry whose text comes next. Each
start tag puts something else there, and each end tag empties it, so an entry
does not survive an element with an end tag that stands in it; and each run of
text replaces the one before it. `recorded?` is what is left of an element,
`described?` what the element says. The entries of a document are the first,
element by element (`entries_document`), and the second where nothing is lost
(`measurements_eq_described_iff_of_parse`).
-/
import HostTrust.Proofs.DocumentReading

namespace HostTrust

namespace MeasurementLog

open Outcome

/-- The text of an element that is kept: that of the last run of its character data. -/
def lastText (c : Xml.Content) : String := (c.texts.getLast?.map textOf).getD ""

/-- The entry that is kept of an element, if it is one: none if an element with an end tag stands
in it. -/
def recorded? (e : Xml.Element) : Option Measurement :=
  if e.inside.hasPair then none
  else (measurement? e.tag).map fun m => { m with value := lastText e.inside }

theorem value_of_measurement? {tag : Xml.Tag} {m : Measurement} (h : measurement? tag = some m) :
    m.value = "" := by
  obtain ⟨kind, -, h⟩ := Option.bind_eq_some_iff.mp h
  exact value_of_entryOfTag (toOption_eq_some_iff.mp h)

/-- A start tag adds no entry yet. -/
theorem entries_opening (b : Begun) : b.opening.filterMap Statement.measurement? = [] := by
  cases b <;> rfl

/-- What the end of an element says. -/
theorem entries_closing (tag : Xml.Tag) (inside : Xml.Content) :
    (said (inside.tokens.foldl next (begun tag).pending) .closing).filterMap
      Statement.measurement? = (recorded? ⟨tag, inside⟩).toList := by
  rw [foldl_next_tokens, recorded?, ← measurement?_begun]
  cases inside.hasPair with
  | true => rfl
  | false =>
    cases h : begun tag with
    | entry m =>
      have blank : m.value = "" := value_of_measurement? (by rw [← measurement?_begun, h]; rfl)
      simp [Begun.pending, Begun.measurement?, Pending.withTexts, said, Statement.measurement?,
        lastText, blank]
    | document | cumulativeHash | other => rfl

/-- What the tag of an element without content says. -/
theorem entries_whole (tag : Xml.Tag) :
    (begun tag).whole.filterMap Statement.measurement? = (recorded? ⟨tag, .nil⟩).toList := by
  rw [recorded?, ← measurement?_begun]
  cases h : begun tag with
  | entry m =>
    have blank : m.value = "" := value_of_measurement? (by rw [← measurement?_begun, h]; rfl)
    show [m] = [{ m with value := "" }]
    rw [← blank]
  | document | cumulativeHash | other => rfl

theorem filterMap_cons_eq_append {α β : Type} (f : α → Option β) (a : α) (as : List α) :
    (a :: as).filterMap f = (f a).toList ++ as.filterMap f := by
  cases h : f a <;> simp [h]

/-- The entries that some content states are those of its elements, whatever is being read in
front of it. -/
theorem entries_tokens (c : Xml.Content) (p : Option Pending) :
    (statements p c.tokens).filterMap Statement.measurement? = c.elements.filterMap recorded? := by
  induction c generalizing p with
  | nil => rfl
  | element tag inside rest inside_ih rest_ih =>
    rw [statements_element, List.filterMap_append, List.filterMap_append, List.filterMap_append,
      entries_opening, inside_ih, entries_closing, rest_ih, Xml.Content.elements,
      List.filterMap_append, filterMap_cons_eq_append]
    rfl
  | lone tag rest ih =>
    rw [Xml.Content.tokens, statements, List.filterMap_append, Xml.Content.elements,
      filterMap_cons_eq_append, ← entries_whole]
    exact congrArg _ (ih p)
  | data raw rest ih =>
    have silent : (said p (.data raw)).filterMap Statement.measurement? = [] := by
      rcases p with _ | _ | _ <;> rfl
    rw [Xml.Content.tokens, statements, List.filterMap_append, silent]
    exact ih _
  | aside rest ih => exact ih p

theorem entries_unclosedTokens (unclosed : List (Xml.Tag × Xml.Content)) (p : Option Pending) :
    (statements p (Xml.unclosedTokens unclosed)).filterMap Statement.measurement? =
      (unclosed.flatMap fun e => e.2.elements).filterMap recorded? := by
  induction unclosed generalizing p with
  | nil => rfl
  | cons e rest ih =>
    have parts : statements p (Xml.unclosedTokens (e :: rest)) = (begun e.1).opening ++
        (statements (begun e.1).pending e.2.tokens ++
          statements (e.2.tokens.foldl next (begun e.1).pending) (Xml.unclosedTokens rest)) := by
      rw [← statements_append]
      rfl
    rw [parts, List.filterMap_append, List.filterMap_append, entries_opening,
      entries_tokens, ih, List.flatMap_cons, List.filterMap_append]
    rfl

/-- The entries of a whole text. -/
theorem entries_document (d : Xml.Document) :
    (statements none d.tokens).filterMap Statement.measurement? =
      d.elements.filterMap recorded? := by
  rw [Xml.Document.tokens, statements_append, List.filterMap_append, entries_tokens,
    entries_unclosedTokens, Xml.Document.elements, List.filterMap_append]

/-- Entries are added at the end. -/
theorem measurements_foldl_amend {log : MeasurementLog} {ss : List Statement}
    (only : ss.filterMap Statement.document? = []) : (ss.foldl amend log).measurements =
      log.measurements ++ ss.filterMap Statement.measurement? := by
  induction ss generalizing log with
  | nil => simp
  | cons s ss ih =>
    cases s with
    | document log' => cases only
    | entry m =>
      rw [List.foldl_cons, ih only]
      exact List.append_assoc ..
    | digest text =>
      rw [List.foldl_cons, ih only]
      rfl

/-- The measurements of a text with one document are the entries that are kept of its elements. -/
theorem measurements_eq_of_parse {xml : String} {d : MeasurementLog} {D : Xml.Document}
    (read : parse xml = .ok d) (written : Xml.document? xml = some D)
    (one : D.tags.countP isDocument = 1) : d.measurements = D.elements.filterMap recorded? := by
  obtain ⟨readable, log, rest, said, rfl⟩ := parse_eq_ok_iff.mp read
  rw [Xml.document?_eq_some_iff.mp written] at readable said
  have documents : ((statements none D.tokens).filterMap Statement.document?) =
      log :: rest.filterMap Statement.document? := by
    rw [said]
    rfl
  have only : rest.filterMap Statement.document? = [] := by
    have count := length_documents_statements readable none
    rw [documents] at count
    have : (rest.filterMap Statement.document?).length + 1 = 1 := count.trans one
    exact List.eq_nil_of_length_eq_zero (by omega)
  have fresh : log.measurements = [] := by
    have begun_here : log ∈ (statements none D.tokens).filterMap Statement.document? := by
      rw [documents]
      exact List.mem_cons_self
    rw [documents_statements] at begun_here
    obtain ⟨tag, -, here⟩ := List.mem_filterMap.mp begun_here
    exact measurements_of_document? here
  rw [measurements_foldl_amend only, fresh, ← entries_document, said]
  rfl

/-! ## The entries that elements describe -/

/-- The whole text of an element: all runs of its character data. A section of raw data is none. -/
def fullText (c : Xml.Content) : String :=
  String.ofList (Text.trimChars (c.texts.flatMap fun raw => (Xml.expand raw).getD []))

/-- The entry that an element describes, if it is one. -/
def described? (e : Xml.Element) : Option Measurement :=
  (measurement? e.tag).map fun m => { m with value := fullText e.inside }

/-- Nothing of the element is lost when it is read. -/
def IsKept (e : Xml.Element) : Prop :=
  e.inside.hasPair = false ∧ lastText e.inside = fullText e.inside

instance (e : Xml.Element) : Decidable (IsKept e) := inferInstanceAs (Decidable (_ ∧ _))

theorem recorded?_eq_described?_iff {e : Xml.Element} :
    recorded? e = described? e ↔ ((described? e).isSome = true → IsKept e) := by
  unfold recorded? described? IsKept
  cases measurement? e.tag with
  | none => simp
  | some m => cases e.inside.hasPair <;> simp

theorem recorded?_eq_none {e : Xml.Element} (h : described? e = none) : recorded? e = none := by
  have : measurement? e.tag = none := by simpa [described?] using h
  simp [recorded?, this]

section Fewer

variable {α β : Type} {f g : α → Option β} (fewer : ∀ a, g a = none → f a = none)

include fewer

theorem length_filterMap_le (as : List α) :
    (as.filterMap f).length ≤ (as.filterMap g).length := by
  rw [List.length_filterMap_eq_countP, List.length_filterMap_eq_countP]
  refine List.countP_mono_left fun a _ found => ?_
  cases h : g a with
  | none => simp [fewer a h] at found
  | some b => rfl

/-- Two lists of what is chosen from the same members, of which one misses whatever the other one
does, are equal only if each choice is. -/
theorem filterMap_eq_iff {as : List α} :
    as.filterMap f = as.filterMap g ↔ ∀ a ∈ as, f a = g a := by
  refine ⟨fun same => ?_, List.filterMap_congr⟩
  induction as with
  | nil => simp
  | cons a as ih =>
    rw [filterMap_cons_eq_append, filterMap_cons_eq_append] at same
    have here : f a = g a := by
      cases hg : g a with
      | none => exact fewer a hg
      | some b =>
        cases hf : f a with
        | none =>
          have longer := congrArg List.length same
          have shorter := length_filterMap_le fewer as
          simp [hf, hg] at longer
          omega
        | some c =>
          have both : c = b ∧ as.filterMap f = as.filterMap g := by simpa [hf, hg] using same
          rw [both.1]
    rw [here, List.append_cancel_left_eq] at same
    exact List.forall_mem_cons.mpr ⟨here, ih same⟩

end Fewer

end MeasurementLog

namespace Sample

open Outcome MeasurementLog

/-- A text with one document that has one file. -/
def fileText (content : String) : String :=
  "<Measurement Uuid=\"5f5f5f5f-5f5f-5f5f-5f5f-5f5f5f5f5f5f\"><File Path=\"/a\">" ++ content ++
    "</File></Measurement>"

end Sample

end HostTrust
