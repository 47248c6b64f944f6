/-
HostTrust.Proofs.LogComparison — what the comparison of two event logs finds.

Logs of one register are compared as sets of keys, and what is found is a part of
each log: its events, in order and as often as they occur, whose key the other log
lacks (`EventLogDiff.Between`). Nothing is found exactly if the sets of keys are
equal, so that logs without a difference are alike in the sense of an equivalence
(`EventLog.alike_equivalence`), which order, repetition, letter case and blanks
around the texts do not affect (`EventLog.Rewrites.alike`). The checks of event
logs report these two lists and nothing else (`EventLog.diff_exact`).
-/
import HostTrust.Proofs.HostData
import HostTrust.Proofs.LetterCase
import HostTrust.Proofs.Passing

namespace HostTrust

open Outcome

/-! ## Keys -/

/-- Two events have one measurement and one type, with any blanks around them and in any letter
case. -/
def Event.SameMeasurement (e f : Event) : Prop :=
  Text.SameWord e.measurement f.measurement ∧ Text.SameWord e.typeId f.typeId

theorem Event.SameMeasurement.key_eq {e f : Event} (h : e.SameMeasurement f) : e.key = f.key :=
  Prod.ext (Text.lower_trim_eq_of_sameWord h.1) (Text.lower_trim_eq_of_sameWord h.2)

/-- The keys of the events of a log. -/
def EventLog.keys (log : EventLog) : List (String × String) := log.events.map Event.key

theorem Event.without_eq_filter (events : List Event) (log : EventLog) :
    Event.without events log.events = events.filter fun e => e.key ∉ log.keys := by
  refine List.filter_congr fun e _ => ?_
  rw [EventLog.keys, List.contains_eq_mem, decide_not]

/-! ## Differences -/

/-- The lists of the difference are the events whose key the other log lacks, in order and as
often as they occur. -/
structure EventLogDiff.Between (d : EventLogDiff) (expected actual : EventLog) : Prop where
  missing : d.missing = expected.events.filter fun e => e.key ∉ actual.keys
  unexpected : d.unexpected = actual.events.filter fun e => e.key ∉ expected.keys

/-- Exchanging the logs exchanges the lists. -/
theorem EventLogDiff.Between.swap {d back : EventLogDiff} {a b : EventLog} (h : d.Between a b)
    (h' : back.Between b a) : d.missing = back.unexpected ∧ d.unexpected = back.missing :=
  ⟨h.missing.trans h'.unexpected.symm, h.unexpected.trans h'.missing.symm⟩

/-- Nothing is found exactly if the keys are the same. -/
theorem EventLogDiff.Between.isEmpty_iff {d : EventLogDiff} {a b : EventLog} (h : d.Between a b) :
    d.isEmpty = true ↔ ∀ key, key ∈ a.keys ↔ key ∈ b.keys := by
  rw [isEmpty, Bool.and_eq_true, List.isEmpty_iff, List.isEmpty_iff, h.missing, h.unexpected,
    ← Event.without_eq_filter, ← Event.without_eq_filter, Event.without_both_eq_nil_iff]
  simp only [EventLog.keys, List.mem_map]

namespace EventLog

variable {a b c : EventLog}

theorem compare_between (a b : EventLog) : (a.compare b).Between a b :=
  ⟨Event.without_eq_filter a.events b, Event.without_eq_filter b.events a⟩

/-- Logs of different registers are not compared. -/
theorem uncompared_of_ne (h : a.pcr ≠ b.pcr) :
    a.subtract b = .error (.differentPcrs a.pcr b.pcr) ∧
      a.diff b = .error (.differentPcrs b.pcr a.pcr) := by
  constructor
  · rw [subtract, ensureSamePcr, if_neg h]
    rfl
  · rw [diff, ensureSamePcr, if_neg (Ne.symm h)]
    rfl

/-- The logs can be compared, and nothing is found. -/
def Alike (a b : EventLog) : Prop := ∃ d, a.diff b = .ok d ∧ d.isEmpty = true

theorem alike_iff : a.Alike b ↔ a.pcr = b.pcr ∧ ∀ key, key ∈ a.keys ↔ key ∈ b.keys := by
  by_cases same : a.pcr = b.pcr
  · simp [Alike, diff_of_same same, (compare_between a b).isEmpty_iff, same]
  · simp [Alike, (uncompared_of_ne same).2, same]

theorem alike_equivalence : Equivalence Alike where
  refl a := alike_iff.mpr ⟨rfl, fun _ => .rfl⟩
  symm h := by
    obtain ⟨pcr, keys⟩ := alike_iff.mp h
    exact alike_iff.mpr ⟨pcr.symm, fun key => (keys key).symm⟩
  trans h h' := by
    obtain ⟨pcr, keys⟩ := alike_iff.mp h
    obtain ⟨pcr', keys'⟩ := alike_iff.mp h'
    exact alike_iff.mpr ⟨pcr.trans pcr', fun key => (keys key).trans (keys' key)⟩

/-- The logs hold the same measurements, in any order, any number of times and in any spelling. -/
structure Rewrites (a b : EventLog) : Prop where
  pcr : a.pcr = b.pcr
  there : ∀ e ∈ a.events, ∃ f ∈ b.events, e.SameMeasurement f
  back : ∀ f ∈ b.events, ∃ e ∈ a.events, e.SameMeasurement f

theorem Rewrites.alike (h : a.Rewrites b) : a.Alike b := by
  refine alike_iff.mpr ⟨h.pcr, fun key => ?_⟩
  simp only [keys, List.mem_map]
  constructor
  · rintro ⟨e, he, rfl⟩
    obtain ⟨f, hf, same⟩ := h.there e he
    exact ⟨f, hf, same.key_eq.symm⟩
  · rintro ⟨f, hf, rfl⟩
    obtain ⟨e, he, same⟩ := h.back f hf
    exact ⟨e, he, same.key_eq⟩

theorem alike_congr {a' b' : EventLog} (h : a.Rewrites a') (h' : b.Rewrites b') :
    a.Alike b ↔ a'.Alike b' :=
  ⟨fun alike => alike_equivalence.trans (alike_equivalence.symm h.alike)
      (alike_equivalence.trans alike h'.alike),
    fun alike => alike_equivalence.trans h.alike
      (alike_equivalence.trans alike (alike_equivalence.symm h'.alike))⟩

end EventLog

/-! ## Checks -/

/-- The faults of the result are that there are unexpected events and that there are missing
ones, where there are any, and they show the events. -/
structure RuleResult.Reports (r : RuleResult) (pcr : Pcr) (d : EventLogDiff) : Prop where
  faults : r.faults = Fault.ifAny .unexpectedEvents pcr d.unexpected ++
    Fault.ifAny .missingEvents pcr d.missing
  unexpected : r.faults.flatMap Fault.unexpectedEntries = d.unexpected
  missing : r.faults.flatMap Fault.missingEntries = d.missing

theorem Fault.flatMap_ifAny {fault : Pcr → List Event → Fault} {evidence : Fault → List Event}
    {pcr : Pcr} (shown : ∀ es, evidence (fault pcr es) = es) (events : List Event) :
    (Fault.ifAny fault pcr events).flatMap evidence = events := by
  cases events <;> simp [Fault.ifAny, shown]

theorem Fault.flatMap_ifAny_eq_nil {fault : Pcr → List Event → Fault}
    {evidence : Fault → List Event} {pcr : Pcr} (absent : ∀ es, evidence (fault pcr es) = [])
    (events : List Event) : (Fault.ifAny fault pcr events).flatMap evidence = [] := by
  cases events <;> simp [Fault.ifAny, absent]

theorem RuleResult.reports_of_faults {r : RuleResult} {pcr : Pcr} {d : EventLogDiff}
    (h : r.faults = Fault.ifAny .unexpectedEvents pcr d.unexpected ++
      Fault.ifAny .missingEvents pcr d.missing) : r.Reports pcr d where
  faults := h
  unexpected := by
    rw [h, List.flatMap_append, Fault.flatMap_ifAny fun _ => rfl,
      Fault.flatMap_ifAny_eq_nil fun _ => rfl, List.append_nil]
  missing := by
    rw [h, List.flatMap_append, Fault.flatMap_ifAny_eq_nil fun _ => rfl,
      Fault.flatMap_ifAny fun _ => rfl, List.nil_append]

namespace Check

variable [CertificateLibrary] {m : HostManifest} {pcrs : PcrManifest} {expected actual : EventLog}
  {markers : List FlavorPart}

/-- The check for exactly the expected events reports the difference. -/
theorem reports_equalEvents (exclude : NameSet) (markers : List FlavorPart)
    (reported : m.reportedPcrs = some pcrs) (logged : pcrs.log? expected.pcr = some actual) :
    ∃ d r, (expected.withoutTags exclude).diff (actual.withoutTags exclude) = .ok d ∧
      ((equalEvents expected exclude).rule markers).judge m = .ok r ∧
      r.Reports expected.pcr d := by
  refine ⟨_, _, (PcrManifest.comparable_of_log? logged exclude).1, rfl,
    RuleResult.reports_of_faults ?_⟩
  simp only [result, RuleResult.ofFaults, HostManifest.inspectPcrs, reported,
    PcrManifest.equalEvents, PcrManifest.inspectLog, logged, EventLogDiff.findings]

theorem passes_equalEvents_iff_without : (equalEvents expected .empty).Passes m ↔
    ∃ pcrs actual, m.reportedPcrs = some pcrs ∧ pcrs.log? expected.pcr = some actual ∧
      Event.without expected.events actual.events = [] ∧
      Event.without actual.events expected.events = [] := by
  have kept : ∀ log : EventLog, log.withoutTags .empty = log := fun _ => rfl
  simp only [passes_equalEvents_iff, HostManifest.LogsExactly, EventLog.hasKey_iff, kept,
    Event.without_both_eq_nil_iff]

/-- There are exactly the expected events if there are the expected ones and no others. -/
theorem passes_equalEvents_iff_passes_includedEvents :
    (equalEvents expected .empty).Passes m ↔ (includedEvents expected).Passes m ∧
      ∀ pcrs actual d, m.reportedPcrs = some pcrs → pcrs.log? expected.pcr = some actual →
        expected.diff actual = .ok d → d.unexpected = [] := by
  have compared : ∀ {pcrs : PcrManifest} {actual}, pcrs.log? expected.pcr = some actual →
      expected.diff actual = .ok (expected.compare actual) := fun logged =>
    EventLog.diff_of_same (PcrManifest.pcr_of_log? logged).symm
  rw [passes_equalEvents_iff_without, passes_includedEvents_iff]
  simp only [HostManifest.LogsAll, ← Event.without_eq_nil_iff]
  constructor
  · rintro ⟨pcrs, actual, reported, logged, missing, unexpected⟩
    refine ⟨⟨pcrs, actual, reported, logged, missing⟩, fun _ _ d reported' logged' h => ?_⟩
    obtain rfl := Option.some.inj (reported.symm.trans reported')
    obtain rfl := Option.some.inj (logged.symm.trans logged')
    obtain rfl := Except.ok.inj ((compared logged).symm.trans h)
    exact unexpected
  · rintro ⟨⟨pcrs, actual, reported, logged, missing⟩, unexpected⟩
    exact ⟨pcrs, actual, reported, logged, missing,
      unexpected pcrs actual _ reported logged (compared logged)⟩

theorem trusted_iff_passes {c : Check} {r : RuleResult} (h : (c.rule markers).judge m = .ok r) :
    r.trusted = true ↔ c.Passes m := by
  have passes : (c.rule markers).Passes m ↔ r.faults = [] := by simp [Rule.Passes, h]
  rw [← passes_rule_iff, passes, RuleResult.trusted_iff]

end Check

/-- **What the comparison of event logs finds.** Logs of one register are compared, and the lists
are the events whose key the other log lacks; logs of different registers are not. Being alike is
an equivalence which no rewriting of a log affects. The check for exactly the expected events
reports the lists, and its result is trusted exactly if that of the check for the expected events
is and there are no unexpected ones. -/
theorem EventLog.diff_exact [CertificateLibrary] :
    (∀ a b : EventLog, a.pcr = b.pcr → ∃ d back, a.diff b = .ok d ∧ b.diff a = .ok back ∧
      d.Between a b ∧ d.missing = back.unexpected ∧ d.unexpected = back.missing ∧
      a.subtract b = .ok { a with events := d.missing } ∧
      (d.isEmpty = true ↔ ∀ key, key ∈ a.keys ↔ key ∈ b.keys)) ∧
    (∀ a b : EventLog, a.pcr ≠ b.pcr → a.subtract b = .error (.differentPcrs a.pcr b.pcr) ∧
      a.diff b = .error (.differentPcrs b.pcr a.pcr)) ∧
    Equivalence Alike ∧
    (∀ a a' b b' : EventLog, a.Rewrites a' → b.Rewrites b' → (a.Alike b ↔ a'.Alike b')) ∧
    ∀ (m : HostManifest) (expected : EventLog) (markers : List FlavorPart),
      (∀ exclude pcrs actual, m.reportedPcrs = some pcrs → pcrs.log? expected.pcr = some actual →
        ∃ d r, (expected.withoutTags exclude).diff (actual.withoutTags exclude) = .ok d ∧
          ((Check.equalEvents expected exclude).rule markers).judge m = .ok r ∧
          r.Reports expected.pcr d) ∧
      ∃ equals includes,
        ((Check.equalEvents expected .empty).rule markers).judge m = .ok equals ∧
        ((Check.includedEvents expected).rule markers).judge m = .ok includes ∧
        (equals.trusted = true ↔ includes.trusted = true ∧
          ∀ pcrs actual d, m.reportedPcrs = some pcrs → pcrs.log? expected.pcr = some actual →
            expected.diff actual = .ok d → d.unexpected = []) := by
  refine ⟨fun a b same => ?_, fun a b => uncompared_of_ne, alike_equivalence,
    fun a a' b b' => alike_congr, fun m expected markers => ⟨fun exclude pcrs actual => ?_, ?_⟩⟩
  · have between := compare_between a b
    obtain ⟨missing, unexpected⟩ := between.swap (compare_between b a)
    exact ⟨_, _, diff_of_same same, diff_of_same same.symm, between, missing, unexpected,
      subtract_of_same same, between.isEmpty_iff⟩
  · exact Check.reports_equalEvents exclude markers
  · obtain ⟨equals, judged⟩ : ∃ r, ((Check.equalEvents expected .empty).rule markers).judge m =
        .ok r := ⟨_, rfl⟩
    obtain ⟨includes, judged'⟩ : ∃ r, ((Check.includedEvents expected).rule markers).judge m =
        .ok r := ⟨_, rfl⟩
    refine ⟨equals, includes, judged, judged', ?_⟩
    rw [Check.trusted_iff_passes judged, Check.trusted_iff_passes judged',
      Check.passes_equalEvents_iff_passes_includedEvents]

namespace Sample

def loggedAs (typeId measurement : String) : Event := ⟨typeId, "", .empty, measurement⟩

def bootLog (events : List Event) : EventLog := ⟨⟨Fin.last 23, .sha256⟩, events⟩

/-- Another spelling of the event `loggedAs "0x1" "AA"`. -/
def respelled : Event := loggedAs "0X1 " "\taa"

/-- A host whose log has another spelling of an event, and an event of its own. -/
def respellingHost : HostManifest :=
  { HostManifest.blank with
    pcrs := some ⟨[], [], { BankMap.empty with
      sha256 := some [bootLog [respelled, loggedAs "0x3" "cc"]] }⟩ }

theorem respelled_sameMeasurement : (loggedAs "0x1" "AA").SameMeasurement respelled := by
  have measurement : Text.Writes "\taa" "aa" :=
    ⟨['\t'], [], rfl, List.forall_mem_singleton.mpr rfl, List.forall_mem_nil _⟩
  have type : Text.Writes "0X1 " "0X1" :=
    ⟨[], [' '], rfl, List.forall_mem_nil _, List.forall_mem_singleton.mpr rfl⟩
  exact ⟨⟨_, _, Text.writes_self _, measurement, .inl rfl⟩,
    ⟨_, _, Text.writes_self _, type, .inl rfl⟩⟩

/-- A respelled event is found, an event that occurs twice is missing twice, and both lists are
reported. -/
theorem respelled_log_compared :
    (∃ d, (bootLog [loggedAs "0x1" "AA", loggedAs "0x2" "bb", loggedAs "0x2" "bb"]).diff
        (bootLog [respelled, loggedAs "0x3" "cc"]) = .ok d ∧
      d.missing = [loggedAs "0x2" "bb", loggedAs "0x2" "bb"] ∧
      d.unexpected = [loggedAs "0x3" "cc"]) ∧
    (bootLog []).subtract ⟨⟨Fin.last 23, .sha1⟩, []⟩ =
      .error (.differentPcrs ⟨Fin.last 23, .sha256⟩ ⟨Fin.last 23, .sha1⟩) ∧
    (bootLog [respelled, respelled]).Alike (bootLog [loggedAs "0x1" "AA"]) ∧
    ∃ r, ((Check.equalEvents (bootLog [loggedAs "0x2" "bb"]) .empty).rule [.os]).judge
        respellingHost = .ok r ∧
      r.faults.flatMap Fault.missingEntries = [loggedAs "0x2" "bb"] ∧
      r.faults.flatMap Fault.unexpectedEntries = [respelled, loggedAs "0x3" "cc"] := by
  obtain ⟨same, other, equivalence, rewriting, checks⟩ := EventLog.diff_exact
  refine ⟨?_, (other _ _ (by decide)).1, ?_, ?_⟩
  · obtain ⟨d, -, found, -, between, -⟩ := same
      (bootLog [loggedAs "0x1" "AA", loggedAs "0x2" "bb", loggedAs "0x2" "bb"])
      (bootLog [respelled, loggedAs "0x3" "cc"]) rfl
    refine ⟨d, found, ?_, ?_⟩
    · rw [between.missing]
      decide +kernel
    · rw [between.unexpected]
      decide +kernel
  · have twice : (bootLog [loggedAs "0x1" "AA"]).Rewrites (bootLog [respelled, respelled]) :=
      ⟨rfl, by simp [bootLog, respelled_sameMeasurement],
        by simp [bootLog, respelled_sameMeasurement]⟩
    have once : (bootLog [loggedAs "0x1" "AA"]).Rewrites (bootLog [loggedAs "0x1" "AA"]) :=
      ⟨rfl, fun e he => ⟨e, he, .refl _, .refl _⟩, fun e he => ⟨e, he, .refl _, .refl _⟩⟩
    exact (rewriting _ _ _ _ twice once).mp (equivalence.refl _)
  · obtain ⟨d, r, found, judged, reports⟩ := (checks respellingHost (bootLog [loggedAs "0x2" "bb"])
      [.os]).1 .empty _ (bootLog [respelled, loggedAs "0x3" "cc"]) rfl rfl
    obtain rfl := Except.ok.inj found
    exact ⟨r, judged, reports.missing.trans (by decide +kernel),
      reports.unexpected.trans (by decide +kernel)⟩

end Sample

end HostTrust
