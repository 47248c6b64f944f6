/-
HostTrust.Proofs.RegisterLookup — consistent register data, and what is found in it.

Register data is checked in several passes: over the values of both lists, over
each list, over the logs. `PcrManifest.Consistent` says without any order what
they ask for together (`PcrManifest.validate_eq_ok_iff`).

A lookup goes by the bank into one of the two lists and takes the first value of
the register there. It needs all of the passes: the values are in the list of
their bank, so no other list has to be looked at, and no register has two, so the
first value is the only one. What is found is what is reported, for every report
that is accepted (`PcrManifest.value?_exact`).
-/
import HostTrust.Proofs.HexDigits
import HostTrust.Proofs.ReportedRegisters
import Mathlib.Data.List.Nodup

namespace HostTrust

open Outcome Json

theorem BankMap.mem_toList_iff {α : Type} {m : BankMap α} {b : Bank} {a : α} :
    (b, a) ∈ m.toList ↔ m.get? b = some a := by
  have every : b ∈ Bank.all := by cases b <;> decide
  simp [toList, every]

theorem PcrValue.validate_eq_ok_iff {v : PcrValue} : v.validate = .ok () ↔
    ∃ bytes, Hex.decode v.value = .ok bytes ∧ bytes.length = v.pcr.bank.digestSize := by
  rw [← Bank.acceptsHex_iff]
  unfold PcrValue.validate
  split <;> simp_all

namespace PcrManifest

/-! ## Consistency -/

/-- One value for each register, in the list of its bank. -/
structure Arranged (m : PcrManifest) : Prop where
  distinct : (m.values.map PcrValue.pcr).Nodup
  sha1 : ∀ v ∈ m.sha1Values, v.pcr.bank = .sha1
  others : ∀ v ∈ m.otherValues, v.pcr.bank ≠ .sha1

/-- Register data that fits together: the values are arranged, each is a digest of the width of
its bank, and logs are under their bank. -/
structure Consistent (m : PcrManifest) : Prop extends m.Arranged where
  digests : ∀ v ∈ m.values,
    ∃ bytes, Hex.decode v.value = .ok bytes ∧ bytes.length = v.pcr.bank.digestSize
  logs : ∀ bank logs, m.logs.get? bank = some logs → ∀ log ∈ logs, log.pcr.bank = bank

theorem validateValues_eq_ok_iff {seen : List Pcr} {values : List PcrValue} :
    validateValues seen values = .ok () ↔ (∀ v ∈ values, v.validate = .ok ()) ∧
      (values.map PcrValue.pcr).Nodup ∧ ∀ v ∈ values, v.pcr ∉ seen := by
  induction values generalizing seen with
  | nil => simp [validateValues]
  | cons v rest ih =>
    rw [validateValues, bind_eq_ok_iff]
    by_cases again : v.pcr ∈ seen
    · simp [again]
    · have step : validateValues (v.pcr :: seen) rest = .ok () ↔
          (∀ w ∈ rest, w.validate = .ok ()) ∧ (rest.map PcrValue.pcr).Nodup ∧
            v.pcr ∉ rest.map PcrValue.pcr ∧ ∀ w ∈ rest, w.pcr ∉ seen := by
        rw [ih]
        simp only [List.mem_cons, not_or, forall_and, List.mem_map, not_exists, not_and]
      simp only [List.contains_iff_mem, again, if_false, step, List.map_cons,
        List.nodup_cons, List.forall_mem_cons, not_false_eq_true]
      tauto

theorem validateLogs_eq_ok_iff {logs : List (Bank × List EventLog)} :
    validateLogs logs = .ok () ↔ ∀ e ∈ logs, ∀ log ∈ e.2, log.pcr.bank = e.1 := by
  induction logs with
  | nil => simp [validateLogs]
  | cons e rest ih =>
    rw [validateLogs, List.forall_mem_cons, ← ih]
    cases misplaced : e.2.find? (·.pcr.bank != e.1) with
    | some log =>
      have mem := List.mem_of_find?_eq_some misplaced
      have other : log.pcr.bank ≠ e.1 := by simpa using List.find?_some misplaced
      simp only [throw_ne_ok, false_iff, not_and]
      exact fun all => (other (all log mem)).elim
    | none =>
      have all : ∀ log ∈ e.2, log.pcr.bank = e.1 := by simpa using misplaced
      exact (and_iff_right all).symm

/-- The passes of the check ask for consistency. -/
theorem validate_eq_ok_iff {m : PcrManifest} : m.validate = .ok () ↔ m.Consistent := by
  have logs : validateLogs m.logs.toList = .ok () ↔
      ∀ bank logs, m.logs.get? bank = some logs → ∀ log ∈ logs, log.pcr.bank = bank := by
    simp only [validateLogs_eq_ok_iff, Prod.forall, BankMap.mem_toList_iff]
  have values : validateValues [] m.values = .ok () ↔
      (∀ v ∈ m.values, v.validate = .ok ()) ∧ (m.values.map PcrValue.pcr).Nodup := by
    simp [validateValues_eq_ok_iff]
  have passes : m.validate = .ok () ↔ validateValues [] m.values = .ok () ∧
      (∀ v ∈ m.sha1Values, v.pcr.bank = .sha1) ∧ (∀ v ∈ m.otherValues, v.pcr.bank ≠ .sha1) ∧
      validateLogs m.logs.toList = .ok () := by
    have sha1 : (∀ v ∈ m.sha1Values, v.pcr.bank = .sha1) ↔
        m.sha1Values.any (·.pcr.bank != .sha1) = false := by simp
    have others : (∀ v ∈ m.otherValues, v.pcr.bank ≠ .sha1) ↔
        m.otherValues.any (·.pcr.bank == .sha1) = false := by simp
    rw [validate, sha1, others]
    cases validateValues [] m.values <;> cases m.sha1Values.any (·.pcr.bank != .sha1) <;>
      cases m.otherValues.any (·.pcr.bank == .sha1) <;> simp
  rw [passes, values, logs]
  simp only [PcrValue.validate_eq_ok_iff]
  exact ⟨fun ⟨⟨digests, distinct⟩, sha1, others, logs⟩ => ⟨⟨distinct, sha1, others⟩, digests, logs⟩,
    fun h => ⟨⟨h.digests, h.distinct⟩, h.sha1, h.others, h.logs⟩⟩

/-! ## Lookups -/

/-- Where no two members have one key, looking for a key finds the member that has it. -/
theorem find?_eq_some_iff_of_nodup {values : List PcrValue} {pcr : Pcr} {v : PcrValue}
    (distinct : (values.map PcrValue.pcr).Nodup) :
    values.find? (·.pcr == pcr) = some v ↔ v ∈ values ∧ v.pcr = pcr := by
  constructor
  · intro found
    exact ⟨List.mem_of_find?_eq_some found, by simpa using List.find?_some found⟩
  · rintro ⟨mem, rfl⟩
    cases found : values.find? (·.pcr == v.pcr) with
    | none => exact absurd (beq_self_eq_true _) (List.find?_eq_none.mp found v mem)
    | some w =>
      have same : w.pcr = v.pcr := by simpa using List.find?_some found
      rw [List.inj_on_of_nodup_map distinct (List.mem_of_find?_eq_some found) mem same]

namespace Arranged

variable {m n : PcrManifest}

/-- In the list of its bank, a value is found exactly if it is reported. -/
theorem value?_eq_some_iff (h : m.Arranged) {pcr : Pcr} {v : PcrValue} :
    m.value? pcr = some v ↔ v ∈ m.values ∧ v.pcr = pcr := by
  have distinct := h.distinct
  rw [values, List.map_append, List.nodup_append] at distinct
  obtain ⟨distinctSha1, distinctOthers, -⟩ := distinct
  have here : v ∈ m.values ↔ v ∈ m.sha1Values ∨ v ∈ m.otherValues := List.mem_append
  by_cases bank : pcr.bank = .sha1
  · have list : m.value? pcr = m.sha1Values.find? (·.pcr == pcr) := by
      rw [value?, bank]
    rw [list, find?_eq_some_iff_of_nodup distinctSha1, here]
    refine and_congr_left fun same => (or_iff_left fun other => ?_).symm
    exact h.others v other (same ▸ bank)
  · have list : m.value? pcr = m.otherValues.find? (·.pcr == pcr) := by
      rw [value?]
      split
      · contradiction
      · rfl
    rw [list, find?_eq_some_iff_of_nodup distinctOthers, here]
    refine and_congr_left fun same => (or_iff_right fun other => ?_).symm
    exact bank (same ▸ h.sha1 v other)

theorem of_perm (h : m.Arranged) (sha1 : n.sha1Values.Perm m.sha1Values)
    (others : n.otherValues.Perm m.otherValues) : n.Arranged where
  distinct := (((sha1.append others).map PcrValue.pcr).nodup_iff).mpr h.distinct
  sha1 v hv := h.sha1 v (sha1.mem_iff.mp hv)
  others v hv := h.others v (others.mem_iff.mp hv)

/-- The order of the values in their lists does not matter to lookups. -/
theorem value?_of_perm (h : m.Arranged) (sha1 : n.sha1Values.Perm m.sha1Values)
    (others : n.otherValues.Perm m.otherValues) (pcr : Pcr) : n.value? pcr = m.value? pcr := by
  have values : n.values.Perm m.values := sha1.append others
  refine Option.ext fun v => ?_
  rw [(h.of_perm sha1 others).value?_eq_some_iff, h.value?_eq_some_iff, values.mem_iff]

end Arranged

end PcrManifest

/-! ## Accepted reports -/

theorem Json.Format.read_of_readBytes {α : Type} {f : Format α} {bs : Bytes} {a : α}
    (h : f.readBytes bs = .ok a) : f.read .text (Doc.ofLetters (Text.decode bs)).1 = .ok a := by
  unfold readBytes at h
  generalize Doc.ofLetters (Text.decode bs) = taken at h ⊢
  obtain ⟨b, read, complete⟩ := bind_eq_ok_iff.mp h
  cases ended : isEnd taken.2 with
  | true =>
    rw [if_pos ended] at complete
    obtain rfl := pure_eq_ok_iff.mp complete
    exact read
  | false =>
    rw [if_neg (by simp [ended])] at complete
    cases complete

namespace HostManifest

/-- The manifest is what a report is accepted as; `report` is its document. -/
inductive AcceptedFrom (m : HostManifest) : Source → Doc → Prop where
  | value {v : Json} : ofJson v = .ok m → AcceptedFrom m .value (Doc.ofJson v)
  | bytes {bs : Bytes} :
    ofBytes bs = .ok m → AcceptedFrom m .text (Doc.ofLetters (Text.decode bs)).1

variable {m : HostManifest} {source : Source} {report : Doc}

theorem checked_eq_ok_iff {x : Except Misfit HostManifest} :
    checked x = .ok m ↔ x = .ok m ∧ m.validate = .ok () := by
  simp only [checked, bind_eq_ok_iff, mapError_eq_ok_iff, pure_eq_ok_iff]
  constructor
  · rintro ⟨_, read, ⟨⟩, consistent, rfl⟩
    exact ⟨read, consistent⟩
  · rintro ⟨read, consistent⟩
    exact ⟨m, read, (), consistent, rfl⟩

theorem read_of_ofJson {v : Json} (h : ofJson v = .ok m) :
    format.readJson v = .ok m ∧ m.validate = .ok () := by
  rw [ofJson] at h
  split at h
  · cases h
  · exact checked_eq_ok_iff.mp h

/-- An accepted report was read from its document, and its register data is consistent. -/
theorem AcceptedFrom.read (h : m.AcceptedFrom source report) :
    format.read source report = .ok m ∧ m.validate = .ok () := by
  cases h with
  | value accepted => exact read_of_ofJson accepted
  | bytes accepted =>
    rw [ofBytes] at accepted
    split at accepted
    · cases accepted
    · exact (checked_eq_ok_iff.mp accepted).imp_left Format.read_of_readBytes

theorem AcceptedFrom.consistent (h : m.AcceptedFrom source report) :
    (m.pcrs.getD .empty).Consistent := by
  have valid := h.read.2
  rw [validate] at valid
  rw [← PcrManifest.validate_eq_ok_iff]
  cases reported : m.pcrs with
  | none => rfl
  | some p => simpa [reported] using valid

/-- The documents that stand for indices of registers in the document of a report. -/
def indexDocs (report : Doc) : List Doc :=
  (valueDocs report ++ logPcrDocs report).flatMap Doc.indexDocs

/-- The documents of the registers of logs are read as registers. -/
theorem exists_read_of_mem_logPcrDocs {values : List PcrValue}
    {entries : List (Bank × List EventLog)} (states : States source report values entries) :
    ∀ d ∈ logPcrDocs report, ∃ p, Pcr.format.read source d = .ok p := by
  intro d hd
  obtain ⟨member, hmember, hd⟩ := List.mem_flatMap.mp hd
  obtain ⟨item, hitem, hd⟩ := List.mem_flatMap.mp hd
  obtain ⟨_, -, _, -, -, logs⟩ := exists_right_of_mem states.logs hmember
  obtain ⟨log, -, read⟩ := exists_right_of_mem (Format.items_of_read logs) hitem
  obtain ⟨_, row, -⟩ := map_eq_ok_iff.mp read
  obtain ⟨⟨part, only, pcr⟩ | ⟨-, absent⟩, -⟩ := Fields.takenFrom_of_read (by decide) row
  · obtain rfl : d = part := List.mem_singleton.mp (only ▸ hd)
    exact ⟨_, pcr⟩
  · cases absent

/-- An index that a report states is at most 23. -/
theorem exists_number_of_mem_indexDocs {values : List PcrValue}
    {entries : List (Bank × List EventLog)} (states : States source report values entries) :
    ∀ x ∈ indexDocs report, ∃ n : Nat, x = .number (.int n) ∧ n ≤ 23 := by
  have stated : ∀ d ∈ valueDocs report ++ logPcrDocs report, ∃ index, d.HasIndex index := by
    intro d hd
    rcases List.mem_append.mp hd with value | log
    · obtain ⟨v, -, read⟩ := exists_right_of_mem states.values value
      exact ⟨_, PcrValue.index_of_read read⟩
    · obtain ⟨p, read⟩ := exists_read_of_mem_logPcrDocs states d log
      exact ⟨_, Pcr.index_of_read read⟩
  intro x hx
  obtain ⟨d, hd, hx⟩ := List.mem_flatMap.mp hx
  obtain ⟨index, only⟩ := stated d hd
  rw [Doc.HasIndex] at only
  rw [only] at hx
  exact ⟨index.val, List.mem_singleton.mp hx, Nat.le_of_lt_succ index.isLt⟩

end HostManifest

/-- **A lookup finds exactly what is reported.** Register data is accepted exactly if it is
consistent. In an accepted report every index that the document states is at most 23 and is the
index of the value, and a lookup gives a value exactly if it is a reported value of the register,
in whatever order the values are listed. -/
theorem PcrManifest.value?_exact :
    (∀ p : PcrManifest, p.validate = .ok () ↔ p.Consistent) ∧
    ∀ (m : HostManifest) (source : Source) (report : Doc) (p : PcrManifest),
      m.AcceptedFrom source report → m.pcrs = some p →
        (∀ x ∈ HostManifest.indexDocs report, ∃ n : Nat, x = .number (.int n) ∧ n ≤ 23) ∧
        List.Forall₂ (fun d v => d.HasIndex v.pcr.index) (HostManifest.valueDocs report)
          p.values ∧
        (∀ pcr v, p.value? pcr = some v ↔ v ∈ p.values ∧ v.pcr = pcr) ∧
        ∀ q : PcrManifest, q.sha1Values.Perm p.sha1Values → q.otherValues.Perm p.otherValues →
          ∀ pcr, q.value? pcr = p.value? pcr := by
  refine ⟨fun p => validate_eq_ok_iff, fun m source report p accepted reported => ?_⟩
  obtain ⟨entries, states, -⟩ := HostManifest.exists_states_of_read accepted.read.1
  have consistent := accepted.consistent
  rw [reported] at states consistent
  exact ⟨HostManifest.exists_number_of_mem_indexDocs states,
    states.values.imp fun d v read => PcrValue.index_of_read read,
    fun pcr v => consistent.value?_eq_some_iff,
    fun q sha1 others => consistent.value?_of_perm sha1 others⟩

namespace Sample

/-- A report with values in both lists and in both forms, and a log under the other names of the
map and of its bank. -/
def mixedRegistersJson : Json :=
  .object [("pcr_manifest", .object [
    ("sha2pcrs", .list [
      .list [.nat 23, .text (String.ofList (List.replicate 64 'a')), .text "sha256"],
      .object [("pcr_bank", .text "SHA384"), ("index", .nat 23),
        ("value", .text (String.ofList (List.replicate 96 'C')))]]),
    ("pcr_event_log_map_new", .object [
      ("sha256", .list [.object [("pcr", .list [.nat 23, .text "SHA256"])]])]),
    ("sha1pcrs", .list [
      .object [("index", .nat 23), ("value", .text (String.ofList (List.replicate 40 'b'))),
        ("pcr_bank", .text "SHA1")]])])]

def mixedRegisters : PcrManifest where
  sha1Values := [⟨⟨Fin.last 23, .sha1⟩, String.ofList (List.replicate 40 'b')⟩]
  otherValues := [⟨⟨Fin.last 23, .sha256⟩, String.ofList (List.replicate 64 'a')⟩,
    ⟨⟨Fin.last 23, .sha384⟩, String.ofList (List.replicate 96 'C')⟩]
  logs := { BankMap.empty with sha256 := some [⟨⟨Fin.last 23, .sha256⟩, []⟩] }

/-- All values are of the last index, in different banks. -/
theorem mixed_registers_found :
    HostManifest.AcceptedFrom { HostManifest.blank with pcrs := some mixedRegisters } .value
      (Doc.ofJson mixedRegistersJson) ∧
    mixedRegisters.Consistent ∧
    (HostManifest.indexDocs (Doc.ofJson mixedRegistersJson)).length = 4 ∧
    (∀ x ∈ HostManifest.indexDocs (Doc.ofJson mixedRegistersJson),
      ∃ n : Nat, x = .number (.int n) ∧ n ≤ 23) ∧
    ∀ pcr v, mixedRegisters.value? pcr = some v ↔ v ∈ mixedRegisters.values ∧ v.pcr = pcr := by
  have small : ¬HostManifest.sizeLimit < mixedRegistersJson.toBytes.length := by decide +kernel
  have accepted : HostManifest.ofJson mixedRegistersJson =
      .ok { HostManifest.blank with pcrs := some mixedRegisters } := by
    rw [HostManifest.ofJson, if_neg small]
    rfl
  obtain ⟨validated, found⟩ := PcrManifest.value?_exact
  obtain ⟨indices, -, lookups, -⟩ := found _ _ _ _ (.value accepted) rfl
  exact ⟨.value accepted, (validated _).mp rfl, by decide, indices, lookups⟩

end Sample

end HostTrust
