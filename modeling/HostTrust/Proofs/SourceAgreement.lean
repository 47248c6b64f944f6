/-
HostTrust.Proofs.SourceAgreement — a report is read alike from bytes and from a
value in memory.

A reader knows whether its document comes from a text or from a value, and names
some faults differently: more items than a structure has fields, or an object with
several members in the place of a name. What it accepts, and as what, does not
depend on it (`Format.IgnoresSource`). This holds of the plain formats, and each
way of putting formats together keeps it, so it holds of a manifest by the shape of
its format (`HostManifest.ignoresSource`).

The compact form of a value is read as the document of the value, so the two ways
to read a report end alike, up to the reason that is given for a report that is no
manifest (`HostManifest.ofBytes_toBytes_agrees_ofJson`).
-/
import HostTrust.Manifest.Format
import HostTrust.Proofs.CompactReading
import HostTrust.Proofs.Record

namespace HostTrust

open Outcome

namespace Json

/-! ## Formats -/

/-- What is accepted, and as what, does not depend on where a document comes from. -/
def Format.IgnoresSource {α : Type} (f : Format α) : Prop :=
  ∀ d, SameResult (f.read .text d) (f.read .value d)

namespace Format

variable {α β κ : Type} {f : Format α}

theorem ignoresSource_text : text.IgnoresSource := fun _ => .refl _

theorem ignoresSource_natural (bits : Nat) : (natural bits).IgnoresSource := fun _ => .refl _

theorem ignoresSource_via {make : α → Except Misfit β} {parts : β → α} (h : f.IgnoresSource) :
    (via f make parts).IgnoresSource := by
  intro d
  exact (h d).bind fun a => .refl (make a)

theorem ignoresSource_optional (h : f.IgnoresSource) : f.optional.IgnoresSource := by
  intro d
  cases d with
  | null => exact .refl _
  | bool | number | text | list | object | unreadable | broken => exact (h _).map some

theorem readItems_sameResult (h : f.IgnoresSource) (items : List Doc) :
    SameResult (readItems f .text items) (readItems f .value items) := by
  induction items with
  | nil => exact .refl _
  | cons d rest ih => exact (h d).bind fun a => ih.bind fun as => .refl _

theorem ignoresSource_list (h : f.IgnoresSource) : (list f).IgnoresSource := by
  intro d
  cases d with
  | list items => exact readItems_sameResult h items
  | null | bool | number | text | object | unreadable | broken => exact .refl _

/-- An object with several members is no name, for one reason or another. -/
theorem ignoresSource_named (ofName : String → Option α) (name : α → String) :
    (named ofName name).IgnoresSource := by
  intro d
  cases d with
  | text s => exact .refl _
  | object members =>
    match members with
    | [] => exact .of_errors _ _
    | (none, d) :: rest => exact .of_errors _ _
    | [(some key, d)] => exact .refl _
    | (some key, d) :: m :: rest =>
      simp only [named]
      cases ofName key with
      | none => exact .of_errors _ _
      | some a => cases d <;> exact .of_errors _ _
  | null | bool | number | list | unreadable | broken => exact .of_errors _ _

theorem readEntries_sameResult (key : String → Except Misfit κ) (h : f.IgnoresSource)
    (members : List (Option String × Doc)) :
    SameResult (readEntries key f .text members) (readEntries key f .value members) := by
  induction members with
  | nil => exact .refl _
  | cons m rest ih =>
    obtain ⟨k | k, d⟩ := m
    · exact .refl _
    · exact (SameResult.refl (key k)).bind fun k => (h d).bind fun a => ih.bind fun es => .refl _

end Format

/-! ## Structures -/

namespace Fields

variable {ts : List Type}

/-- No field depends on where a document comes from. -/
def IgnoreSource : {ts : List Type} → Fields ts → Prop
  | _, .nil => True
  | _, .cons field rest => field.format.IgnoresSource ∧ IgnoreSource rest

theorem put?_sameResult {fields : Fields ts} (h : fields.IgnoreSource) (key : String) (d : Doc)
    (slots : Slots ts) :
    SameResult (put? .text key d fields slots) (put? .value key d fields slots) := by
  induction fields with
  | nil => exact .refl _
  | cons field rest ih =>
    cases answers : field.answers key with
    | true =>
      rw [put?_of_answers answers, put?_of_answers answers]
      cases Slots.head slots with
      | some a => exact .refl _
      | none => exact (h.1 d).bind fun a => .refl _
    | false =>
      rw [put?_of_other answers, put?_of_other answers]
      exact (ih h.2 _).bind fun found => .refl _

theorem readMembers_sameResult {fields : Fields ts} (h : fields.IgnoreSource) (slots : Slots ts)
    (members : List (Option String × Doc)) :
    SameResult (readMembers .text fields slots members)
      (readMembers .value fields slots members) := by
  induction members generalizing slots with
  | nil => exact .refl _
  | cons m rest ih =>
    obtain ⟨key | key, d⟩ := m
    · exact .refl _
    · refine (put?_sameResult h key d slots).bind fun found => ?_
      cases found with
      | some slots => exact ih slots
      | none =>
        show SameResult (if d.isWhole then _ else _) (if d.isWhole then _ else _)
        cases d.isWhole with
        | true => exact ih slots
        | false => exact .refl _

theorem readInOrder_sameResult {fields : Fields ts} (h : fields.IgnoreSource) (taken : Nat)
    (items : List Doc) :
    SameResult (readInOrder .text taken fields items)
      (readInOrder .value taken fields items) := by
  induction fields generalizing taken items with
  | nil => exact .refl _
  | cons field rest ih =>
    cases items with
    | cons d items => exact (h.1 d).bind fun a => (ih h.2 _ items).bind fun row => .refl _
    | nil =>
      rw [readInOrder, readInOrder]
      cases field.absent with
      | none => exact .refl _
      | some a => exact (ih h.2 _ []).bind fun row => .refl _

theorem read_sameResult {fields : Fields ts} (h : fields.IgnoreSource) (d : Doc) :
    SameResult (fields.read .text d) (fields.read .value d) := by
  cases d with
  | object members =>
    exact (readMembers_sameResult h fields.noSlots members).bind fun slots => .refl _
  | list items =>
    refine (readInOrder_sameResult h 0 items).bind fun row => ?_
    obtain ⟨row, more⟩ := row
    show SameResult (if more.isEmpty then _ else _) (if more.isEmpty then _ else _)
    cases more.isEmpty with
    | true => exact .refl _
    | false => exact .of_errors _ _
  | null | bool | number | text | unreadable | broken => exact .refl _

theorem ignoresSource_record {α : Type} {fields : Fields ts} {build : Row ts → α}
    {parts : α → Row ts} (h : fields.IgnoreSource) : (fields.record build parts).IgnoresSource :=
  fun d => (read_sameResult h d).map build

end Fields

/-! ## The compact form -/

/-- The compact form of a value is read as the value would be if it came from a text. -/
theorem Format.readBytes_toBytes {α : Type} (f : Format α) {v : Json} (integral : Integral v)
    (nested : depth v ≤ Doc.greatestDepth) :
    f.readBytes v.toBytes = f.read .text (Doc.ofJson v) := by
  rw [Format.readBytes, Doc.ofLetters_decode_toBytes integral nested]
  show (f.read .text (Doc.ofJson v) >>= fun a => pure a) = _
  rw [bind_pure]

end Json

open Json Json.Format Json.Fields

/-! ## Manifests -/

theorem Bank.ignoresSource : Bank.format.IgnoresSource := ignoresSource_named _ _

theorem Pcr.ignoresSource : Pcr.format.IgnoresSource :=
  ignoresSource_via (ignoresSource_record ⟨ignoresSource_natural 32, Bank.ignoresSource, trivial⟩)

theorem PcrValue.ignoresSource : PcrValue.format.IgnoresSource :=
  ignoresSource_via (ignoresSource_record ⟨ignoresSource_natural 32, ignoresSource_text,
    Bank.ignoresSource, trivial⟩)

theorem NameSet.ignoresSource : NameSet.format.IgnoresSource :=
  ignoresSource_via (ignoresSource_list ignoresSource_text)

theorem Event.ignoresSource : Event.format.IgnoresSource :=
  ignoresSource_record ⟨ignoresSource_text, ignoresSource_text, NameSet.ignoresSource,
    ignoresSource_text, trivial⟩

theorem EventLog.ignoresSource : EventLog.format.IgnoresSource :=
  ignoresSource_record ⟨Pcr.ignoresSource, ignoresSource_list Event.ignoresSource, trivial⟩

theorem BankMap.ignoresSource {α : Type} {f : Format α} (h : f.IgnoresSource) :
    (BankMap.format f).IgnoresSource := by
  intro d
  cases d with
  | object members => exact (readEntries_sameResult Bank.ofKey h members).map BankMap.ofList
  | null | bool | number | text | list | unreadable | broken => exact .refl _

theorem PcrManifest.ignoresSource : PcrManifest.format.IgnoresSource :=
  ignoresSource_record ⟨ignoresSource_list PcrValue.ignoresSource,
    ignoresSource_list PcrValue.ignoresSource,
    BankMap.ignoresSource (ignoresSource_list EventLog.ignoresSource), trivial⟩

theorem HostInfo.ignoresSource : HostInfo.format.IgnoresSource :=
  ignoresSource_record ⟨ignoresSource_text, ignoresSource_text, ignoresSource_text,
    ignoresSource_text, ignoresSource_text, ignoresSource_text, ignoresSource_text,
    ignoresSource_text, trivial⟩

namespace HostManifest

theorem ignoresSource : HostManifest.format.IgnoresSource :=
  ignoresSource_record ⟨HostInfo.ignoresSource, ignoresSource_optional PcrManifest.ignoresSource,
    ignoresSource_optional ignoresSource_text, ignoresSource_optional ignoresSource_text,
    ignoresSource_optional ignoresSource_text, ignoresSource_list ignoresSource_text, trivial⟩

end HostManifest

/-! ## Register data that is inconsistent -/

theorem PcrValue.kind_of_validate {v : PcrValue} {e : MeasurementError}
    (h : v.validate = .error e) : e.kind = .validation := by
  unfold PcrValue.validate at h
  split at h
  · cases h
  · cases h
    rfl

namespace PcrManifest

theorem kind_of_validateValues {seen : List Pcr} {values : List PcrValue} {e : MeasurementError}
    (h : validateValues seen values = .error e) : e.kind = .validation := by
  induction values generalizing seen with
  | nil => cases h
  | cons v rest ih =>
    rw [validateValues] at h
    rcases bind_eq_error_iff.mp h with value | ⟨-, -, h⟩
    · exact PcrValue.kind_of_validate value
    · split at h
      · cases h
        rfl
      · exact ih h

theorem kind_of_validateLogs {logs : List (Bank × List EventLog)} {e : MeasurementError}
    (h : validateLogs logs = .error e) : e.kind = .validation := by
  induction logs with
  | nil => cases h
  | cons entry rest ih =>
    rw [validateLogs] at h
    split at h
    · cases h
      rfl
    · exact ih h

theorem kind_of_validate {m : PcrManifest} {e : MeasurementError} (h : m.validate = .error e) :
    e.kind = .validation := by
  unfold validate at h
  rcases bind_eq_error_iff.mp h with values | ⟨-, -, h⟩
  · exact kind_of_validateValues values
  · dsimp only at h
    split at h
    · cases h
      rfl
    · split at h
      · cases h
        rfl
      · exact kind_of_validateLogs h

end PcrManifest

namespace HostManifest

/-- Data that was read and is inconsistent is told apart from data that cannot be read. -/
theorem kind_of_validate {m : HostManifest} {e : MeasurementError} (h : m.validate = .error e) :
    e.kind = .validation := by
  unfold HostManifest.validate at h
  split at h
  · exact PcrManifest.kind_of_validate h
  · cases h

theorem checked_ne_manifestTooLarge (x : Except Misfit HostManifest) :
    checked x ≠ .error .manifestTooLarge := by
  intro h
  rcases bind_eq_error_iff.mp h with misfit | ⟨m, -, h⟩
  · cases x <;> cases misfit
  · rcases bind_eq_error_iff.mp h with inconsistent | ⟨-, -, h⟩
    · cases kind_of_validate inconsistent
    · cases h

/-- Manifests that were read alike are accepted alike. -/
theorem checked_of_sameResult {x y : Except Misfit HostManifest} (h : SameResult x y) :
    (∃ m, checked x = .ok m ∧ checked y = .ok m) ∨
      ∃ e e', checked x = .error e ∧ checked y = .error e' ∧ e.kind = e'.kind := by
  rcases h.cases with ⟨m, rfl, rfl⟩ | ⟨e, e', rfl, rfl⟩
  · cases accepted : checked (.ok m) with
    | ok m => exact .inl ⟨m, rfl, rfl⟩
    | error e => exact .inr ⟨e, e, rfl, rfl, rfl⟩
  · exact .inr ⟨_, _, rfl, rfl, rfl⟩

/-- **Bytes and values are one report.** A value whose numbers are integers in range and whose
brackets are nested no deeper than a text may nest them is accepted exactly if its compact form
is accepted, as the same manifest, and a refusal is of the same kind. Either way it is too large
exactly if its compact form is longer than the limit. -/
theorem ofBytes_toBytes_agrees_ofJson {v : Json} (integral : v.Integral)
    (nested : v.depth ≤ 127) :
    ((∃ m, ofBytes v.toBytes = .ok m ∧ ofJson v = .ok m) ∨
      ∃ e e', ofBytes v.toBytes = .error e ∧ ofJson v = .error e' ∧ e.kind = e'.kind) ∧
    (ofBytes v.toBytes = .error .manifestTooLarge ↔ sizeLimit < v.toBytes.length) ∧
    (ofJson v = .error .manifestTooLarge ↔ sizeLimit < v.toBytes.length) := by
  unfold ofBytes ofJson
  rw [readBytes_toBytes format integral nested]
  by_cases large : sizeLimit < v.toBytes.length
  · simp only [if_pos large]
    exact ⟨.inr ⟨_, _, rfl, rfl, rfl⟩, iff_of_true rfl large, iff_of_true rfl large⟩
  · simp only [if_neg large]
    exact ⟨checked_of_sameResult (ignoresSource (Doc.ofJson v)),
      iff_of_false (checked_ne_manifestTooLarge _) large,
      iff_of_false (checked_ne_manifestTooLarge _) large⟩

end HostManifest

namespace Sample

open HostManifest

/-- A report with lists in the place of structures, a name given as a key, a map under its other
name, members that are passed over, and escapes. -/
def oddManifestJson : Json :=
  .object [
    ("host_info", .list [.text "h\"\n\x01\u00e9", .text ""]),
    ("extra", .list [.int (-9223372036854775808), .nat 18446744073709551615, .bool false]),
    ("pcr_manifest", .list [
      .list [],
      .list [.list [.nat 7, .text (String.ofList (List.replicate 64 'a')),
        .object [("SHA256", .null)]]],
      .object [("sha256", .list [.list [.list [.nat 7, .text "SHA256"]]])]]),
    ("aik_certificate", .null)]

def oddManifest : HostManifest :=
  { HostManifest.blank with
    hostInfo := { HostInfo.blank with hostName := "h\"\n\x01\u00e9" }
    pcrs := some ⟨[], [⟨⟨⟨7, by decide⟩, .sha256⟩, String.ofList (List.replicate 64 'a')⟩],
      { BankMap.empty with sha256 := some [⟨⟨⟨7, by decide⟩, .sha256⟩, []⟩] }⟩ }

theorem odd_read_alike : oddManifestJson.Integral ∧ oddManifestJson.depth ≤ 127 ∧
    ofJson oddManifestJson = .ok oddManifest ∧
    ofBytes oddManifestJson.toBytes = .ok oddManifest := by
  have integral : oddManifestJson.Integral := by
    simp [oddManifestJson, Integral, ItemsIntegral, MembersIntegral, Json.nat, Json.int,
      Number.InRange]
  have nested : oddManifestJson.depth ≤ 127 := by decide
  have small : ¬sizeLimit < oddManifestJson.toBytes.length := by decide +kernel
  have accepted : ofJson oddManifestJson = .ok oddManifest := by
    rw [ofJson, if_neg small]
    rfl
  refine ⟨integral, nested, accepted, ?_⟩
  obtain ⟨alike, -, -⟩ := ofBytes_toBytes_agrees_ofJson integral nested
  rcases alike with ⟨m, bytes, value⟩ | ⟨e, e', -, value, -⟩
  · rw [bytes, ← value, accepted]
  · rw [accepted] at value
    cases value

end Sample

end HostTrust
