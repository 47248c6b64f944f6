/-
HostTrust.Proofs.ExcludedEvents — events with excluded tags count for nothing.

An expected log and the log of a host may be retouched: events with one of the
excluded tags are inserted and removed anywhere, any number of times
(`EventLog.Retouched`). One such step leaves the log without the excluded events as
it is, so any number of them does, and logs with the same rest are all that can be
reached (`EventLog.retouched_iff`). The check for exactly the expected events looks
at that rest alone, and so finds the same on retouched logs. It is no blinder than
that: an event without an excluded tag whose key is not expected is always reported,
and without excluded tags whole logs are compared (`Check.excluded_events_uncounted`).
-/
import HostTrust.Proofs.LogComparison
import Mathlib.Logic.Relation

namespace HostTrust

open Outcome

/-! ## Retouched logs -/

namespace EventLog

variable {tags : NameSet} {a b : EventLog}

/-- The second log is the first one with one more event, which carries one of the tags. -/
inductive Gains (tags : NameSet) : EventLog → EventLog → Prop where
  | event {pcr : Pcr} {before after : List Event} {e : Event} (tagged : e.hasAnyTag tags = true) :
    Gains tags ⟨pcr, before ++ after⟩ ⟨pcr, before ++ e :: after⟩

/-- Events with one of the tags are inserted and removed. -/
def Retouched (tags : NameSet) : EventLog → EventLog → Prop := Relation.EqvGen (Gains tags)

theorem withoutTags_eq_filter (log : EventLog) (tags : NameSet) :
    log.withoutTags tags = { log with events := log.events.filter fun e => !e.hasAnyTag tags } := by
  unfold withoutTags
  split
  · next none =>
    have untagged : ∀ e : Event, e.hasAnyTag tags = false := by
      intro e
      have : tags.toList = [] := by simpa [NameSet.isEmpty] using none
      simp [Event.hasAnyTag_eq_false_iff, this]
    simp [untagged]
  · rfl

theorem pcr_withoutTags (log : EventLog) (tags : NameSet) :
    (log.withoutTags tags).pcr = log.pcr := by
  rw [withoutTags_eq_filter]

/-- One more event with an excluded tag leaves the rest of a log as it is. -/
theorem Gains.withoutTags_eq (h : Gains tags a b) : a.withoutTags tags = b.withoutTags tags := by
  obtain ⟨tagged⟩ := h
  simp [withoutTags_eq_filter, tagged]

theorem Retouched.withoutTags_eq (h : Retouched tags a b) :
    a.withoutTags tags = b.withoutTags tags := by
  induction h with
  | rel a b gains => exact gains.withoutTags_eq
  | refl a => rfl
  | symm a b _ ih => exact ih.symm
  | trans a b c _ _ first second => exact first.trans second

theorem Retouched.pcr_eq (h : Retouched tags a b) : a.pcr = b.pcr := by
  rw [← pcr_withoutTags a tags, h.withoutTags_eq, pcr_withoutTags]

/-- Removing events one after the other leads to the log without them. -/
theorem retouched_withoutTags (log : EventLog) (tags : NameSet) :
    Retouched tags log (log.withoutTags tags) := by
  -- The events in front of those looked at have been kept.
  have removed : ∀ (kept events : List Event), Retouched tags ⟨log.pcr, kept ++ events⟩
      ⟨log.pcr, kept ++ events.filter fun e => !e.hasAnyTag tags⟩ := by
    intro kept events
    induction events generalizing kept with
    | nil => exact .refl _
    | cons e rest ih =>
      by_cases tagged : e.hasAnyTag tags = true
      · have one : Retouched tags ⟨log.pcr, kept ++ e :: rest⟩ ⟨log.pcr, kept ++ rest⟩ :=
          .symm _ _ (.rel _ _ (.event tagged))
        have all : Retouched tags ⟨log.pcr, kept ++ e :: rest⟩
            ⟨log.pcr, kept ++ rest.filter fun e => !e.hasAnyTag tags⟩ :=
          .trans _ _ _ one (ih kept)
        simpa [tagged] using all
      · simpa [tagged] using ih (kept ++ [e])
  rw [withoutTags_eq_filter]
  exact removed [] log.events

/-- The logs that retouching leads to are those with the same rest. -/
theorem retouched_iff : Retouched tags a b ↔ a.withoutTags tags = b.withoutTags tags := by
  refine ⟨Retouched.withoutTags_eq, fun same => ?_⟩
  have there := retouched_withoutTags a tags
  rw [same] at there
  exact there.trans _ _ _ (retouched_withoutTags b tags).symm

end EventLog

/-- The hosts report the same about the register apart from events with one of the tags: both
report register data or none, both a log of the register or none, and the logs are retouched. -/
def HostManifest.RetouchedAt (tags : NameSet) (pcr : Pcr) (m m' : HostManifest) : Prop :=
  Option.Rel (fun pcrs pcrs' =>
    Option.Rel (EventLog.Retouched tags) (pcrs.log? pcr) (pcrs'.log? pcr))
    m.reportedPcrs m'.reportedPcrs

/-- The host reports the log of its register. -/
def HostManifest.Reports (m : HostManifest) (log : EventLog) : Prop :=
  ∃ pcrs, m.reportedPcrs = some pcrs ∧ pcrs.log? log.pcr = some log

/-! ## What the check finds -/

/-- Hosts whose register data are inspected alike are found alike. -/
theorem HostManifest.inspectPcrs_congr {m m' : HostManifest}
    {R : PcrManifest → PcrManifest → Prop} {inspect inspect' : PcrManifest → Findings}
    (same : ∀ pcrs pcrs', R pcrs pcrs' → inspect pcrs = inspect' pcrs')
    (reported : Option.Rel R m.reportedPcrs m'.reportedPcrs) :
    m.inspectPcrs inspect = m'.inspectPcrs inspect' := by
  unfold inspectPcrs
  generalize m.reportedPcrs = pcrs at reported ⊢
  generalize m'.reportedPcrs = pcrs' at reported ⊢
  cases reported with
  | none => rfl
  | some related => exact same _ _ related

/-- Logs that are inspected alike are found alike. -/
theorem PcrManifest.inspectLog_congr {pcrs pcrs' : PcrManifest} {pcr : Pcr}
    {R : EventLog → EventLog → Prop} {inspect inspect' : EventLog → Findings}
    (same : ∀ a b, R a b → inspect a = inspect' b)
    (logged : Option.Rel R (pcrs.log? pcr) (pcrs'.log? pcr)) :
    pcrs.inspectLog pcr inspect = pcrs'.inspectLog pcr inspect' := by
  unfold inspectLog
  generalize pcrs.log? pcr = log at logged ⊢
  generalize pcrs'.log? pcr = log' at logged ⊢
  cases logged with
  | none => rfl
  | some related => exact same _ _ related

namespace Check

variable [CertificateLibrary] {m m' : HostManifest} {expected expected' actual : EventLog}
  {exclude : NameSet}

/-- The check looks at logs without excluded events only. -/
theorem findings_equalEvents_of_retouched (flavor : expected.Retouched exclude expected')
    (host : m.RetouchedAt exclude expected.pcr m') :
    (equalEvents expected exclude).findings m = (equalEvents expected' exclude).findings m' := by
  have pcr := flavor.pcr_eq
  have compared : ∀ a b : EventLog, a.Retouched exclude b →
      ((expected.withoutTags exclude).compare (a.withoutTags exclude)).findings expected.pcr =
        ((expected'.withoutTags exclude).compare (b.withoutTags exclude)).findings
          expected'.pcr := by
    intro a b retouched
    rw [flavor.withoutTags_eq, retouched.withoutTags_eq, pcr]
  refine congrArg pure (HostManifest.inspectPcrs_congr (fun pcrs pcrs' logged => ?_) host)
  rw [PcrManifest.equalEvents, PcrManifest.equalEvents, ← pcr]
  exact PcrManifest.inspectLog_congr (pcr ▸ compared) logged

theorem findings_equalEvents_of_reports (reported : m.Reports actual)
    (pcr : actual.pcr = expected.pcr) :
    (equalEvents expected exclude).findings m =
      .ok (((expected.withoutTags exclude).compare (actual.withoutTags exclude)).findings
        expected.pcr) := by
  obtain ⟨pcrs, present, logged⟩ := reported
  rw [pcr] at logged
  simp only [findings, HostManifest.inspectPcrs, present, PcrManifest.equalEvents,
    PcrManifest.inspectLog, logged]
  rfl

/-- Without excluded tags whole logs are compared. -/
theorem findings_equalEvents_of_isEmpty (none : exclude.isEmpty = true) (m : HostManifest) :
    (equalEvents expected exclude).findings m = .ok (m.inspectPcrs fun pcrs =>
      pcrs.inspectLog expected.pcr fun actual =>
        (expected.compare actual).findings expected.pcr) := by
  have whole : ∀ log : EventLog, log.withoutTags exclude = log := by
    intro log
    rw [EventLog.withoutTags, if_pos none]
  simp only [findings, PcrManifest.equalEvents, whole]
  rfl

end Check

theorem NameSet.eq_empty_of_isEmpty {s : NameSet} (h : s.isEmpty = true) : s = .empty := by
  obtain ⟨names, ascending⟩ := s
  obtain rfl : names = [] := by simpa [isEmpty] using h
  rfl

/-- An event that is kept and whose key no kept expected event has is unexpected. -/
theorem EventLog.mem_unexpected {expected actual : EventLog} {exclude : NameSet} {e : Event}
    (logged : e ∈ actual.events) (untagged : e.hasAnyTag exclude = false)
    (foreign : ¬ expected.HasKey exclude e.key) :
    e ∈ ((expected.withoutTags exclude).compare (actual.withoutTags exclude)).unexpected := by
  have kept : e ∈ (actual.withoutTags exclude).events :=
    mem_withoutTags.mpr ⟨logged, Event.hasAnyTag_eq_false_iff.mp untagged⟩
  have absent : e.key ∉ (expected.withoutTags exclude).keys := by
    rw [hasKey_iff] at foreign
    simpa [keys] using foreign
  rw [(compare_between _ _).unexpected, List.mem_filter]
  exact ⟨kept, decide_eq_true absent⟩

/-- **Excluded events count for nothing, and no others are excluded.** Whatever events with an
excluded tag are inserted into or removed from the expected log and the log of the host, the check
for exactly the expected events finds the same faults and notes the same. An event of the host
without such a tag whose key is not expected is always reported. Without excluded tags the check is
the one for whole logs. -/
theorem Check.excluded_events_uncounted [CertificateLibrary] (markers : List FlavorPart) :
    (∀ (exclude : NameSet) (expected expected' : EventLog) (m m' : HostManifest),
      expected.Retouched exclude expected' → m.RetouchedAt exclude expected.pcr m' →
      ∃ r r', ((equalEvents expected exclude).rule markers).judge m = .ok r ∧
        ((equalEvents expected' exclude).rule markers).judge m' = .ok r' ∧
        r.faults = r'.faults ∧ r.mismatches = r'.mismatches) ∧
    (∀ (exclude : NameSet) (expected actual : EventLog) (m : HostManifest) (e : Event),
      actual.pcr = expected.pcr → m.Reports actual → e ∈ actual.events →
      e.hasAnyTag exclude = false → ¬ expected.HasKey exclude e.key →
      ∃ r events, ((equalEvents expected exclude).rule markers).judge m = .ok r ∧
        Fault.unexpectedEvents expected.pcr events ∈ r.faults ∧ e ∈ events) ∧
    ∀ (exclude : NameSet) (expected : EventLog), exclude.isEmpty = true →
      (equalEvents expected exclude).rule markers = (equalEvents expected .empty).rule markers ∧
      ((equalEvents expected exclude).rule markers).name = "PcrEventLogEquals" ∧
      ∀ m, (equalEvents expected exclude).findings m = .ok (m.inspectPcrs fun pcrs =>
        pcrs.inspectLog expected.pcr fun actual =>
          (expected.compare actual).findings expected.pcr) := by
  refine ⟨?_, ?_, ?_⟩
  · intro exclude expected expected' m m' flavor host
    have same := findings_equalEvents_of_retouched flavor host
    obtain ⟨found, judged⟩ : ∃ found, (equalEvents expected exclude).findings m = .ok found :=
      ⟨_, rfl⟩
    refine ⟨_, _, map_eq_ok_iff.mpr ⟨found, judged, rfl⟩,
      map_eq_ok_iff.mpr ⟨found, same ▸ judged, rfl⟩, rfl, rfl⟩
  · intro exclude expected actual m e pcr reported logged untagged foreign
    have unexpected := EventLog.mem_unexpected logged untagged foreign
    refine ⟨_, _, map_eq_ok_iff.mpr
      ⟨_, findings_equalEvents_of_reports reported pcr, rfl⟩, ?_, unexpected⟩
    refine List.mem_append_left _ ?_
    rw [Fault.ifAny, if_neg (by simpa using List.ne_nil_of_mem unexpected)]
    exact List.mem_singleton_self _
  · intro exclude expected none
    refine ⟨?_, ?_, findings_equalEvents_of_isEmpty none⟩
    · rw [NameSet.eq_empty_of_isEmpty none]
    · rw [NameSet.eq_empty_of_isEmpty none]
      rfl

namespace Sample

def commandLineTag : NameSet := .ofList ["commandLine."]

/-- An event that differs from host to host. -/
def bootOption (measurement : String) : Event :=
  { loggedAs "0x1" measurement with tags := commandLineTag }

/-- A host that reports the events. -/
def loggingHost (events : List Event) : HostManifest :=
  { HostManifest.blank with
    pcrs := some ⟨[], [], { BankMap.empty with sha256 := some [bootLog events] }⟩ }

theorem reports_loggingHost (events : List Event) :
    (loggingHost events).Reports (bootLog events) :=
  ⟨_, rfl, rfl⟩

/-- Boot options on both sides count for nothing, one of them with the key of an event that
counts; an event that is not expected is reported all the same. -/
theorem boot_options_uncounted :
    (∃ r r', ((Check.equalEvents (bootLog [loggedAs "0x1" "aa"]) commandLineTag).rule [.os]).judge
        (loggingHost [loggedAs "0x1" "aa", loggedAs "0x3" "cc"]) = .ok r ∧
      ((Check.equalEvents (bootLog [bootOption "bb", loggedAs "0x1" "aa"])
        commandLineTag).rule [.os]).judge
        (loggingHost [bootOption "aa", loggedAs "0x1" "aa", bootOption "dd",
          loggedAs "0x3" "cc"]) = .ok r' ∧
      r.faults = r'.faults ∧ r.mismatches = r'.mismatches) ∧
    (∃ r events, ((Check.equalEvents (bootLog [bootOption "cc"]) commandLineTag).rule [.os]).judge
        (loggingHost [bootOption "aa", loggedAs "0x1" "cc"]) = .ok r ∧
      Fault.unexpectedEvents ⟨Fin.last 23, .sha256⟩ events ∈ r.faults ∧
      loggedAs "0x1" "cc" ∈ events) ∧
    (Check.equalEvents (bootLog []) .empty).findings (loggingHost [bootOption "aa"]) =
      .ok (((bootLog []).compare (bootLog [bootOption "aa"])).findings ⟨Fin.last 23, .sha256⟩) := by
  obtain ⟨uncounted, reported, whole⟩ := Check.excluded_events_uncounted [.os]
  refine ⟨uncounted commandLineTag _ _ _ _ ?_ ?_, ?_, (whole .empty (bootLog []) rfl).2.2 _⟩
  · exact EventLog.retouched_iff.mpr (by decide +kernel)
  · exact .some (.some (EventLog.retouched_iff.mpr (by decide +kernel)))
  · refine reported commandLineTag (bootLog [bootOption "cc"])
      (bootLog [bootOption "aa", loggedAs "0x1" "cc"]) _ (loggedAs "0x1" "cc") rfl
      (reports_loggingHost _) (by decide) (by decide +kernel) ?_
    -- The expected event with the key is an excluded one.
    rw [EventLog.hasKey_iff]
    have none : ((bootLog [bootOption "cc"]).withoutTags commandLineTag).events = [] := by
      decide +kernel
    simp [none]

end Sample

end HostTrust
