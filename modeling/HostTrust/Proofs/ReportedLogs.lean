/-
HostTrust.Proofs.ReportedLogs — the event logs that a report states, and those
that checks see.

A report lists logs under names of banks, and for a register the checks see at
most one log. Two names may stand for one bank, and then the last list of the bank
counts; in a list the first log of a register is found. That a register has one
value is checked when a report is accepted, but not that it has one log. So logs
can be hidden: every stated log is seen exactly if each is in the list that
counts and no two different ones are for one register
(`HostManifest.all_logs_seen_iff`).
-/
import HostTrust.Proofs.RegisterLookup

namespace HostTrust

open Json

/-! ## Lookups of logs -/

namespace BankMap

variable {α : Type}

theorem get?_insert (m : BankMap α) (b : Bank) (a : α) (c : Bank) :
    (m.insert b a).get? c = if c = b then some a else m.get? c := by
  cases b <;> cases c <;> rfl

/-- Of several entries of a bank the last one counts. -/
theorem get?_ofList (entries : List (Bank × α)) (b : Bank) :
    (ofList entries).get? b = entries.reverse.lookup b := by
  rw [ofList, Sorted.get?_foldl_insert get?_insert]
  cases b <;> exact Option.or_none

end BankMap

/-- Register data in which nothing is reported has no logs. -/
theorem PcrManifest.log?_of_isEmpty {p : PcrManifest} (h : p.isEmpty = true) (pcr : Pcr) :
    p.log? pcr = none := by
  rw [isEmpty, Bool.and_eq_true, List.all_eq_true] at h
  rw [log?]
  cases listed : p.logs.get? pcr.bank with
  | none => rfl
  | some logs =>
    have empty := h.2 _ (BankMap.mem_toList_iff.mpr listed)
    obtain rfl : logs = [] := List.isEmpty_iff.mp empty
    rfl

namespace HostManifest

/-- The event log that checks see for a register. -/
def log? (m : HostManifest) (pcr : Pcr) : Option EventLog :=
  m.reportedPcrs.bind (·.log? pcr)

theorem log?_eq (m : HostManifest) (pcr : Pcr) : m.log? pcr = (m.pcrs.getD .empty).log? pcr := by
  rw [log?, reportedPcrs]
  cases m.pcrs with
  | none => cases pcr with | mk _ bank => cases bank <;> rfl
  | some p =>
    cases empty : p.isEmpty with
    | true => simp [Option.filter, empty, PcrManifest.log?_of_isEmpty empty]
    | false => simp [Option.filter, empty]

/-- In the entries of a report, a log is looked for in the last list of its bank. -/
theorem log?_of_logs {m : HostManifest} {entries : List (Bank × List EventLog)}
    (h : (m.pcrs.getD .empty).logs = BankMap.ofList entries) (pcr : Pcr) :
    m.log? pcr = (entries.reverse.lookup pcr.bank).bind (·.find? (·.pcr == pcr)) := by
  rw [log?_eq, PcrManifest.log?, h, BankMap.get?_ofList]
  rfl

end HostManifest

/-! ## Logs that are stated and logs that are seen -/

theorem EventLog.entered_unique {source : Source} :
    Relator.RightUnique (EventLog.Entered source) := by
  rintro ⟨_, d⟩ ⟨bank, logs⟩ ⟨bank', logs'⟩ ⟨name, rfl, key, read⟩ ⟨name', same, key', read'⟩
  obtain rfl := Option.some.inj same
  obtain rfl := Except.ok.inj (key.symm.trans key')
  obtain rfl := Except.ok.inj (read.symm.trans read')
  rfl

/-- A document states its event logs in one way. -/
theorem HostManifest.States.entries_unique {source : Source} {report : Doc}
    {values values' : List PcrValue} {entries entries' : List (Bank × List EventLog)}
    (h : States source report values entries) (h' : States source report values' entries') :
    entries = entries' :=
  List.right_unique_forall₂' EventLog.entered_unique h.logs h'.logs

namespace EventLog

variable {entries : List (Bank × List EventLog)} {log : EventLog}

/-- The log is in the list that counts for its bank. -/
def Counts (log : EventLog) (entries : List (Bank × List EventLog)) : Prop :=
  ∃ logs, entries.reverse.lookup log.pcr.bank = some logs ∧ log ∈ logs

/-- The logs that the entries state. -/
def stated (entries : List (Bank × List EventLog)) : List EventLog := entries.flatMap Prod.snd

theorem Counts.stated (h : log.Counts entries) : log ∈ stated entries := by
  obtain ⟨logs, last, mem⟩ := h
  obtain ⟨before, after, split, -⟩ := List.lookup_eq_some_iff.mp last
  have listed : (log.pcr.bank, logs) ∈ entries := by
    rw [← List.mem_reverse, split]
    exact List.mem_append_right _ (.head _)
  exact List.mem_flatMap.mpr ⟨_, listed, mem⟩

/-- What is found is a log of the register that counts. -/
theorem counts_of_find {pcr : Pcr}
    (h : (entries.reverse.lookup pcr.bank).bind (·.find? (·.pcr == pcr)) = some log) :
    log.Counts entries ∧ log.pcr = pcr := by
  obtain ⟨logs, last, found⟩ := Option.bind_eq_some_iff.mp h
  have here : log.pcr = pcr := by simpa using List.find?_some found
  exact ⟨⟨logs, here ▸ last, List.mem_of_find?_eq_some found⟩, here⟩

theorem exists_find_of_counts (h : log.Counts entries) : ∃ seen : EventLog,
    (entries.reverse.lookup log.pcr.bank).bind (·.find? (·.pcr == log.pcr)) = some seen := by
  obtain ⟨logs, last, mem⟩ := h
  have found : (logs.find? (·.pcr == log.pcr)).isSome = true :=
    List.find?_isSome.mpr ⟨log, mem, beq_self_eq_true _⟩
  obtain ⟨seen, hseen⟩ := Option.isSome_iff_exists.mp found
  exact ⟨seen, by rw [last, Option.bind_some, hseen]⟩

/-- The only list of a bank is its last one. -/
theorem lookup_of_nodup {bank : Bank} {logs : List EventLog}
    (banks : (entries.map Prod.fst).Nodup) (listed : (bank, logs) ∈ entries) :
    entries.reverse.lookup bank = some logs := by
  obtain ⟨before, after, split⟩ := List.append_of_mem (List.mem_reverse.mpr listed)
  refine List.lookup_eq_some_iff.mpr ⟨before, after, split, fun e earlier => ?_⟩
  have distinct : (entries.reverse.map Prod.fst).Nodup := by
    rw [List.map_reverse]
    exact List.nodup_reverse.mpr banks
  rw [split, List.map_append, List.nodup_append] at distinct
  exact bne_iff_ne.mpr (distinct.2.2 _ (List.mem_map_of_mem earlier) _ (.head _)).symm

end EventLog

/-- In consistent register data a list holds logs of its bank, so where each bank has one list,
every log counts. -/
theorem PcrManifest.Consistent.counts {p : PcrManifest} {entries : List (Bank × List EventLog)}
    (h : p.Consistent) (logs : p.logs = BankMap.ofList entries)
    (banks : (entries.map Prod.fst).Nodup) :
    ∀ log ∈ EventLog.stated entries, log.Counts entries := by
  intro log stated
  obtain ⟨⟨bank, listed⟩, entered, mem⟩ := List.mem_flatMap.mp stated
  have last := EventLog.lookup_of_nodup banks entered
  have under : p.logs.get? bank = some listed := by rw [logs, BankMap.get?_ofList, last]
  obtain rfl := h.logs bank listed under log mem
  exact ⟨listed, last, mem⟩

/-- **The logs that are seen.** An accepted report states event logs, and checks see, for each
register, the first log in the last list of its bank. So every stated log is seen exactly if each
one counts, as it does where each bank has one list, and no two different ones are for one
register. -/
theorem HostManifest.all_logs_seen_iff {m : HostManifest} {source : Source} {report : Doc}
    (accepted : m.AcceptedFrom source report) :
    (∃ values entries, States source report values entries) ∧
    ∀ values entries, States source report values entries →
      (∀ pcr, m.log? pcr = (entries.reverse.lookup pcr.bank).bind (·.find? (·.pcr == pcr))) ∧
      ((∀ log ∈ EventLog.stated entries, m.log? log.pcr = some log) ↔
        (∀ log ∈ EventLog.stated entries, log.Counts entries) ∧
        ∀ log ∈ EventLog.stated entries, ∀ other ∈ EventLog.stated entries,
          log.pcr = other.pcr → log = other) ∧
      ((entries.map Prod.fst).Nodup → ∀ log ∈ EventLog.stated entries, log.Counts entries) := by
  obtain ⟨entries, states, logs⟩ := exists_states_of_read accepted.read.1
  refine ⟨⟨_, entries, states⟩, fun values' entries' states' => ?_⟩
  obtain rfl := states'.entries_unique states
  have lookup := log?_of_logs logs
  refine ⟨lookup, ⟨fun seen => ⟨fun log h => ?_, fun log h other h' same => ?_⟩, ?_⟩,
    accepted.consistent.counts logs⟩
  · exact (EventLog.counts_of_find ((lookup log.pcr).symm.trans (seen log h))).1
  · have alike := seen other h'
    rw [← same, seen log h] at alike
    exact Option.some.inj alike
  · rintro ⟨counts, single⟩ log h
    obtain ⟨found, hfound⟩ := EventLog.exists_find_of_counts (counts log h)
    obtain ⟨foundCounts, same⟩ := EventLog.counts_of_find hfound
    rw [lookup, hfound, single found foundCounts.stated log h same]

namespace Sample

def logJson (index : Nat) (measurement : String) : Json :=
  .object [("pcr", .object [("index", .nat index), ("bank", .text "SHA256")]),
    ("tpm_events", .list [.object [("type_id", .text "0x1"), ("measurement", .text measurement)]])]

def logOf (index : Fin 24) (measurement : String) : EventLog :=
  ⟨⟨index, .sha256⟩, [⟨"0x1", "", .empty, measurement⟩]⟩

/-- A report of event logs under names of banks. -/
def logsJson (entries : List (String × List Json)) : Json :=
  .object [("pcr_manifest", .object [("pcr_event_log_map",
    .object (entries.map fun e => (e.1, .list e.2)))])]

/-- What a report of logs is accepted as, if these are in the last list. -/
def hostWithLogs (logs : List EventLog) : HostManifest :=
  { HostManifest.blank with pcrs := some ⟨[], [], { BankMap.empty with sha256 := some logs }⟩ }

/-- Two logs of one bank, listed once. -/
theorem both_logs_seen :
    HostManifest.ofJson (logsJson [("sha256", [logJson 17 "aa", logJson 18 "bb"])]) =
      .ok (hostWithLogs [logOf 17 "aa", logOf 18 "bb"]) ∧
    ∀ log ∈ [logOf 17 "aa", logOf 18 "bb"],
      (hostWithLogs [logOf 17 "aa", logOf 18 "bb"]).log? log.pcr = some log := by
  have small : ¬HostManifest.sizeLimit <
      (logsJson [("sha256", [logJson 17 "aa", logJson 18 "bb"])]).toBytes.length := by
    decide +kernel
  have accepted : HostManifest.ofJson (logsJson [("sha256", [logJson 17 "aa", logJson 18 "bb"])]) =
      .ok (hostWithLogs [logOf 17 "aa", logOf 18 "bb"]) := by
    rw [HostManifest.ofJson, if_neg small]
    rfl
  obtain ⟨-, seen⟩ := HostManifest.all_logs_seen_iff (.value accepted)
  obtain ⟨-, iff, counts⟩ := seen [] [(.sha256, [logOf 17 "aa", logOf 18 "bb"])]
    ⟨.nil, .cons ⟨"sha256", rfl, rfl, rfl⟩ .nil⟩
  exact ⟨accepted, iff.mpr ⟨counts (by decide), by decide⟩⟩

/-- A second log for a register is accepted and never seen. -/
theorem second_log_hidden :
    HostManifest.ofJson (logsJson [("SHA256", [logJson 17 "aa", logJson 17 "bb"])]) =
      .ok (hostWithLogs [logOf 17 "aa", logOf 17 "bb"]) ∧
    HostManifest.States .value
      (Doc.ofJson (logsJson [("SHA256", [logJson 17 "aa", logJson 17 "bb"])])) []
      [(.sha256, [logOf 17 "aa", logOf 17 "bb"])] ∧
    logOf 17 "bb" ∈ EventLog.stated [(.sha256, [logOf 17 "aa", logOf 17 "bb"])] ∧
    (hostWithLogs [logOf 17 "aa", logOf 17 "bb"]).log? (logOf 17 "bb").pcr ≠
      some (logOf 17 "bb") := by
  have small : ¬HostManifest.sizeLimit <
      (logsJson [("SHA256", [logJson 17 "aa", logJson 17 "bb"])]).toBytes.length := by
    decide +kernel
  refine ⟨?_, ⟨.nil, .cons ⟨"SHA256", rfl, rfl, rfl⟩ .nil⟩, by decide, by decide⟩
  rw [HostManifest.ofJson, if_neg small]
  rfl

/-- Under two names of one bank, all logs of the first list are hidden. -/
example :
    HostManifest.States .value
      (Doc.ofJson (logsJson [("SHA256", [logJson 17 "aa"]), ("sha256", [logJson 18 "bb"])])) []
      [(.sha256, [logOf 17 "aa"]), (.sha256, [logOf 18 "bb"])] ∧
    HostManifest.checked (HostManifest.format.readJson
      (logsJson [("SHA256", [logJson 17 "aa"]), ("sha256", [logJson 18 "bb"])])) =
        .ok (hostWithLogs [logOf 18 "bb"]) ∧
    (hostWithLogs [logOf 18 "bb"]).log? (logOf 17 "aa").pcr = none :=
  ⟨⟨.nil, .cons ⟨"SHA256", rfl, rfl, rfl⟩ (.cons ⟨"sha256", rfl, rfl, rfl⟩ .nil)⟩, rfl, rfl⟩

end Sample

end HostTrust
