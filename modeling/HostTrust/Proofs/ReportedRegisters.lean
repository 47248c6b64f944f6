/-
HostTrust.Proofs.ReportedRegisters — what the document of a report states about
registers, and what is read of it.

`HostManifest.valueDocs` and `HostManifest.logEntries` find the documents of the
register values and the entries of the map of event logs, in whatever form the
report gives its structures and under any of their names, without reading them.
`HostManifest.States` says which values and logs these documents stand for. A
report that is read has all of its values, and of its entries the last one for
each bank (`HostManifest.exists_states_of_read`).

A register is read with the index that its document states, and only if that is
at most 23 (`Pcr.index_of_read`, `PcrValue.index_of_read`).
-/
import HostTrust.Manifest.Format
import HostTrust.Proofs.RecordParts

namespace HostTrust

open Outcome

namespace Json

/-! ## Lists and maps -/

/-- The items of a list. -/
def Doc.items : Doc → List Doc
  | .list items => items
  | _ => []

/-- The members of an object. -/
def Doc.members : Doc → List (Option String × Doc)
  | .object members => members
  | _ => []

namespace Format

variable {α κ : Type} {f : Format α} {source : Source}

theorem items_of_read {d : Doc} {as : List α} (h : f.list.read source d = .ok as) :
    List.Forall₂ (fun item a => f.read source item = .ok a) d.items as := by
  cases d with
  | list items =>
    change readItems f source items = .ok as at h
    induction items generalizing as with
    | nil =>
      cases h
      exact .nil
    | cons item rest ih =>
      obtain ⟨a, here, h⟩ := bind_eq_ok_iff.mp h
      obtain ⟨others, later, made⟩ := bind_eq_ok_iff.mp h
      cases made
      exact .cons here (ih later)
  | null | bool | number | text | object | unreadable | broken => cases h

theorem entries_of_readEntries {key : String → Except Misfit κ}
    {members : List (Option String × Doc)} {entries : List (κ × α)}
    (h : readEntries key f source members = .ok entries) :
    List.Forall₂ (fun member entry => ∃ name, member.1 = some name ∧ key name = .ok entry.1 ∧
      f.read source member.2 = .ok entry.2) members entries := by
  induction members generalizing entries with
  | nil =>
    cases h
    exact .nil
  | cons member rest ih =>
    obtain ⟨_ | name, d⟩ := member
    · cases h
    · obtain ⟨k, named, h⟩ := bind_eq_ok_iff.mp h
      obtain ⟨a, here, h⟩ := bind_eq_ok_iff.mp h
      obtain ⟨others, later, made⟩ := bind_eq_ok_iff.mp h
      cases made
      exact .cons ⟨name, rfl, named, here⟩ (ih later)

theorem number_of_read_natural {bits n : Nat} {d : Doc}
    (h : (natural bits).read source d = .ok n) : d = .number (.int n) := by
  cases d with
  | number v =>
    cases v with
    | int k =>
      simp only [natural] at h
      split at h
      case isTrue range =>
        obtain rfl := pure_eq_ok_iff.mp h
        rw [Int.toNat_of_nonneg range.1]
      case isFalse => exact absurd h throw_ne_ok
    | float => cases h
  | null | bool | text | list | object | unreadable | broken => cases h

end Format

end Json

open Json

/-! ## The index of a register -/

theorem Pcr.ofParts_eq_ok_iff {index : Nat} {bank : Bank} {p : Pcr} :
    Pcr.ofParts index bank = .ok p ↔ p.index.val = index ∧ p.bank = bank := by
  rw [Pcr.ofParts, mapError_eq_ok_iff, Pcr.ofIndex]
  obtain ⟨⟨i, bound⟩, b⟩ := p
  split
  case isTrue small =>
    rw [pure_eq_ok_iff]
    simp [Pcr.mk.injEq, eq_comm]
  case isFalse large =>
    refine iff_of_false throw_ne_ok ?_
    rintro ⟨rfl, -⟩
    exact large bound

/-- The documents that stand for the index of a register or of its value. -/
def Json.Doc.indexDocs (d : Doc) : List Doc := d.parts ["index"] 0

/-- The document states this index, and no other one. -/
def Json.Doc.HasIndex (d : Doc) (index : Fin 24) : Prop :=
  d.indexDocs = [.number (.int index.val)]

theorem Pcr.index_of_read {source : Source} {d : Doc} {p : Pcr}
    (h : Pcr.format.read source d = .ok p) : d.HasIndex p.index := by
  obtain ⟨_, read, made⟩ := bind_eq_ok_iff.mp h
  obtain ⟨⟨index, bank, ⟨⟩⟩, row, rfl⟩ := map_eq_ok_iff.mp read
  obtain ⟨same, -⟩ := Pcr.ofParts_eq_ok_iff.mp made
  obtain ⟨⟨part, only, number⟩ | ⟨-, absent⟩, -⟩ := Fields.takenFrom_of_read (by decide) row
  · obtain rfl := Format.number_of_read_natural number
    rw [Doc.HasIndex, same]
    exact only
  · cases absent

theorem PcrValue.index_of_read {source : Source} {d : Doc} {v : PcrValue}
    (h : PcrValue.format.read source d = .ok v) : d.HasIndex v.pcr.index := by
  obtain ⟨_, read, made⟩ := bind_eq_ok_iff.mp h
  obtain ⟨⟨index, value, bank, ⟨⟩⟩, row, rfl⟩ := map_eq_ok_iff.mp read
  obtain ⟨p, named, rfl⟩ := map_eq_ok_iff.mp made
  obtain ⟨same, -⟩ := Pcr.ofParts_eq_ok_iff.mp named
  obtain ⟨⟨part, only, number⟩ | ⟨-, absent⟩, -⟩ := Fields.takenFrom_of_read (by decide) row
  · obtain rfl := Format.number_of_read_natural number
    rw [Doc.HasIndex, same]
    exact only
  · cases absent

/-! ## The register data of a report -/

namespace PcrManifest

/-- The documents of register values in the document of register data. -/
def valueDocs (pcrs : Doc) : List Doc :=
  (pcrs.parts ["sha1pcrs"] 0).flatMap Doc.items ++ (pcrs.parts ["sha2pcrs"] 1).flatMap Doc.items

/-- The entries of the map of event logs in the document of register data. -/
def logEntries (pcrs : Doc) : List (Option String × Doc) :=
  (pcrs.parts ["pcr_event_log_map", "pcr_event_log_map_new"] 2).flatMap Doc.members

end PcrManifest

namespace HostManifest

/-- The documents of the register data of a report. -/
def pcrDocs (report : Doc) : List Doc := report.parts ["pcr_manifest"] 1

/-- The documents of the register values in the document of a report. -/
def valueDocs (report : Doc) : List Doc := (pcrDocs report).flatMap PcrManifest.valueDocs

/-- The entries of the map of event logs in the document of a report. -/
def logEntries (report : Doc) : List (Option String × Doc) :=
  (pcrDocs report).flatMap PcrManifest.logEntries

/-- The documents of the registers of event logs in the document of a report. -/
def logPcrDocs (report : Doc) : List Doc :=
  (logEntries report).flatMap fun entry => entry.2.items.flatMap (·.parts ["pcr"] 0)

end HostManifest

/-- A member of the map of event logs names this bank and holds these logs. -/
def EventLog.Entered (source : Source) (member : Option String × Doc)
    (entry : Bank × List EventLog) : Prop :=
  ∃ name, member.1 = some name ∧ Bank.ofKey name = .ok entry.1 ∧
    EventLog.format.list.read source member.2 = .ok entry.2

namespace HostManifest

/-- The document of the report states these values, and these event logs under the banks that
the keys of their entries name, in this order. -/
structure States (source : Source) (report : Doc) (values : List PcrValue)
    (entries : List (Bank × List EventLog)) : Prop where
  values : List.Forall₂ (fun d v => PcrValue.format.read source d = .ok v) (valueDocs report) values
  logs : List.Forall₂ (EventLog.Entered source) (logEntries report) entries

end HostManifest

section

variable {source : Source} {d : Doc}

theorem Json.Field.items_of_takenFrom {α : Type} {name : String} {f : Format α} {parts : List Doc}
    {as : List α} (h : (Field.listOrEmpty name f).TakenFrom source parts as) :
    List.Forall₂ (fun item a => f.read source item = .ok a) (parts.flatMap Doc.items) as := by
  rcases h with ⟨part, rfl, read⟩ | ⟨rfl, absent⟩
  · simpa using Format.items_of_read read
  · cases absent
    exact .nil

theorem PcrManifest.entries_of_read {p : PcrManifest}
    (h : PcrManifest.format.read source d = .ok p) :
    List.Forall₂ (fun d v => PcrValue.format.read source d = .ok v) (valueDocs d) p.values ∧
      ∃ entries, List.Forall₂ (EventLog.Entered source) (logEntries d) entries ∧
        p.logs = BankMap.ofList entries := by
  obtain ⟨⟨sha1, others, logs, ⟨⟩⟩, row, rfl⟩ := map_eq_ok_iff.mp h
  obtain ⟨first, second, third, -⟩ := Fields.takenFrom_of_read (by decide) row
  refine ⟨List.rel_append (Json.Field.items_of_takenFrom first)
    (Json.Field.items_of_takenFrom second), ?_⟩
  rcases third with ⟨part, only, read⟩ | ⟨none, absent⟩
  · have here : logEntries d = part.members := by
      rw [logEntries]
      exact (congrArg (List.flatMap Doc.members) only).trans (by simp)
    cases part with
    | object members =>
      obtain ⟨entries, members, rfl⟩ := map_eq_ok_iff.mp read
      exact ⟨entries, here ▸ Format.entries_of_readEntries members, rfl⟩
    | null | bool | number | text | list | unreadable | broken => cases read
  · have here : logEntries d = [] := congrArg (List.flatMap Doc.members) none
    cases absent
    exact ⟨[], here ▸ .nil, rfl⟩

/-- A report that is read has all values that its document states, and the logs of the last
entry for each bank. -/
theorem HostManifest.exists_states_of_read {m : HostManifest}
    (h : HostManifest.format.read source d = .ok m) :
    ∃ entries, States source d (m.pcrs.getD .empty).values entries ∧
      (m.pcrs.getD .empty).logs = BankMap.ofList entries := by
  obtain ⟨⟨info, pcrs, rest⟩, row, rfl⟩ := map_eq_ok_iff.mp h
  obtain ⟨-, taken, -⟩ := Fields.takenFrom_of_read (by decide) row
  -- Absent register data and a `null` in its place state nothing.
  have nothing : pcrDocs d = [] ∨ pcrDocs d = [.null] →
      States source d (PcrManifest.empty).values [] := by
    rintro (none | null)
    · constructor <;> simp [valueDocs, logEntries, none, PcrManifest.empty, PcrManifest.values]
    · constructor <;> simp [valueDocs, logEntries, null, PcrManifest.valueDocs,
        PcrManifest.logEntries, Doc.parts, PcrManifest.empty, PcrManifest.values]
  rcases taken with ⟨part, only, read⟩ | ⟨none, absent⟩
  · have solid : ∀ p, PcrManifest.format.read source part = .ok p →
        ∃ entries, States source d p.values entries ∧ p.logs = BankMap.ofList entries := by
      intro p read
      obtain ⟨values, entries, logs, made⟩ := PcrManifest.entries_of_read read
      have one : pcrDocs d = [part] := only
      refine ⟨entries, ⟨?_, ?_⟩, made⟩
      · simpa [valueDocs, one] using values
      · simpa [logEntries, one] using logs
    cases part with
    | null =>
      cases read
      exact ⟨[], nothing (.inr only), rfl⟩
    | bool | number | text | list | object | unreadable | broken =>
      obtain ⟨p, given, rfl⟩ := map_eq_ok_iff.mp read
      exact solid p given
  · cases absent
    exact ⟨[], nothing (.inl none), rfl⟩

end

end HostTrust
