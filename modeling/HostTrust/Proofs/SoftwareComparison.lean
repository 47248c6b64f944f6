/-
HostTrust.Proofs.SoftwareComparison — when the measured software of a host is
what a flavor expects.

The comparison goes path by path over two maps, and a map keeps one entry for a
path: the last one (`Measurement.CountsIn`). So the check is passed exactly if
the entries that count are expected and every expected path is measured
(`passes_measurements_iff`). An earlier entry for the same path is not looked
at. Every entry is as expected exactly if the check is passed and the entries
for each path agree with the one that counts (`trusted_iff_of_documents`).
-/
import HostTrust.Proofs.HostData
import HostTrust.Proofs.IntelVerdict

namespace HostTrust

open Outcome

namespace Measurement

/-! ## Entries by path -/

/-- The entry is the one that counts for its path: no later one has the same path. -/
def CountsIn (e : Measurement) (ms : List Measurement) : Prop :=
  ∃ before after, ms = before ++ e :: after ∧ ∀ a ∈ after, a.path ≠ e.path

variable {e : Measurement} {ms : List Measurement}

theorem CountsIn.mem (h : e.CountsIn ms) : e ∈ ms := by
  obtain ⟨before, after, rfl, -⟩ := h
  simp

/-- The map of some entries is a search from their end. -/
theorem get?_byPath (ms : List Measurement) (path : String) :
    (byPath ms).get? path = ms.reverse.find? (·.path == path) := by
  rw [byPath, NameMap.get?_ofList, ← List.map_reverse, Sorted.lookup_map_key]

theorem get?_byPath_eq_some_iff {path : String} :
    (byPath ms).get? path = some e ↔ e.path = path ∧ e.CountsIn ms := by
  rw [get?_byPath, List.find?_eq_some_iff_append, beq_iff_eq]
  refine and_congr_right fun here => ?_
  constructor
  · rintro ⟨after, before, split, fresh⟩
    refine ⟨before.reverse, after.reverse, ?_, by simpa [here] using fresh⟩
    simpa using congrArg List.reverse split
  · rintro ⟨before, after, rfl, fresh⟩
    exact ⟨after.reverse, before.reverse, by simp, by simpa [here] using fresh⟩

/-- Every measured path has an entry that counts. -/
theorem exists_countsIn (h : e ∈ ms) : ∃ l : Measurement, l.CountsIn ms ∧ l.path = e.path := by
  have found : (ms.reverse.find? (·.path == e.path)).isSome = true := by
    rw [List.find?_isSome]
    exact ⟨e, by simpa using h, by simp⟩
  obtain ⟨l, hl⟩ := Option.isSome_iff_exists.mp found
  rw [← get?_byPath, get?_byPath_eq_some_iff] at hl
  exact ⟨l, hl.2, hl.1⟩

/-- Where no path occurs twice, every entry counts. -/
theorem countsIn_iff_mem (distinct : (ms.map path).Nodup) : e.CountsIn ms ↔ e ∈ ms := by
  refine ⟨CountsIn.mem, fun h => ?_⟩
  obtain ⟨before, after, rfl⟩ := List.append_of_mem h
  refine ⟨before, after, rfl, fun a ha same => ?_⟩
  rw [List.map_append, List.map_cons, List.nodup_append, List.nodup_cons] at distinct
  exact distinct.2.1.1 (same ▸ List.mem_map_of_mem ha)

theorem agrees_iff {a b : Measurement} : a.agrees b = true ↔
    a.kind = b.kind ∧ a.value.toList.map Char.toLower = b.value.toList.map Char.toLower := by
  simp [agrees, Text.sameIgnoringCase]

/-! ## Faults -/

theorem lacking_eq_nil_iff {xs ys : NameMap Measurement} :
    lacking xs ys = [] ↔ ∀ path x, xs.get? path = some x → ∃ y, ys.get? path = some y := by
  have found : ∀ path, ys.contains path = true ↔ ∃ y, ys.get? path = some y :=
    fun _ => Option.isSome_iff_exists
  simp [lacking, found, NameMap.get?_eq_some_iff]

theorem disagreeing_eq_nil_iff {expected actual : NameMap Measurement} :
    disagreeing expected actual = [] ↔ ∀ path x, expected.get? path = some x →
      ∀ a, actual.get? path = some a → a.agrees x = true := by
  simp [disagreeing, NameMap.get?_eq_some_iff]

/-- There are no faults exactly if both maps have the same paths and agree on them. -/
theorem faults_eq_nil_iff {flavor : Uuid} {expected actual : List Measurement} :
    faults flavor expected actual = [] ↔
      (∀ path a, (byPath actual).get? path = some a →
        ∃ x, (byPath expected).get? path = some x ∧ a.agrees x = true) ∧
      ∀ path x, (byPath expected).get? path = some x → ∃ a, (byPath actual).get? path = some a := by
  have split : faults flavor expected actual = [] ↔
      lacking (byPath actual) (byPath expected) = [] ∧
        lacking (byPath expected) (byPath actual) = [] ∧
        disagreeing (byPath expected) (byPath actual) = [] := by
    simp [faults]
  rw [split, lacking_eq_nil_iff, lacking_eq_nil_iff, disagreeing_eq_nil_iff]
  constructor
  · rintro ⟨known, covered, agree⟩
    refine ⟨fun path a ha => ?_, covered⟩
    obtain ⟨x, hx⟩ := known path a ha
    exact ⟨x, hx, agree path x hx a ha⟩
  · rintro ⟨known, covered⟩
    refine ⟨fun path a ha => ?_, covered, fun path x hx a ha => ?_⟩
    · obtain ⟨x, hx, -⟩ := known path a ha
      exact ⟨x, hx⟩
    · obtain ⟨x', hx', agree⟩ := known path a ha
      obtain rfl : x = x' := by simpa [hx] using hx'
      exact agree

end Measurement

namespace Software

variable {s : Software} {e : Measurement}

/-- The flavor has this kind and this value at the path of the entry, up to letter case. -/
def Expects (s : Software) (e : Measurement) : Prop :=
  ∃ x, s.measurements.get? e.path = some x ∧ e.kind = x.kind ∧
    Text.sameIgnoringCase e.value x.value = true

/-- Every expected path is one of the measured paths. -/
def CoveredBy (s : Software) (ms : List Measurement) : Prop :=
  ∀ path x, s.measurements.get? path = some x → ∃ e ∈ ms, e.path = path

theorem mem_entries_iff : e ∈ s.entries ↔
    s.measurements.get? e.path = some ⟨e.kind, e.value, e.includes, e.excludes⟩ := by
  rw [NameMap.get?_eq_some_iff, entries, List.mem_map]
  constructor
  · rintro ⟨⟨path, x⟩, entered, rfl⟩
    exact entered
  · exact fun entered => ⟨_, entered, rfl⟩

/-- A flavor has one entry for a path. -/
theorem nodup_paths (s : Software) : (s.entries.map Measurement.path).Nodup := by
  rw [entries, List.map_map, List.nodup_iff_pairwise_ne, List.pairwise_map]
  refine s.measurements.ascending.imp fun {a b} less => ?_
  exact fun same : a.1 = b.1 => String.lt_irrefl b.1 (same ▸ less)

theorem get?_byPath_entries_iff {path : String} :
    (Measurement.byPath s.entries).get? path = some e ↔ e.path = path ∧
      s.measurements.get? e.path = some ⟨e.kind, e.value, e.includes, e.excludes⟩ := by
  rw [Measurement.get?_byPath_eq_some_iff, Measurement.countsIn_iff_mem s.nodup_paths,
    mem_entries_iff]

theorem expects_iff : s.Expects e ↔
    ∃ x, (Measurement.byPath s.entries).get? e.path = some x ∧ e.agrees x = true := by
  simp only [get?_byPath_entries_iff, Expects, Measurement.agrees, Bool.and_eq_true, beq_iff_eq]
  constructor
  · rintro ⟨x, found, kind, value⟩
    exact ⟨⟨x.kind, e.path, x.value, x.includes, x.excludes⟩, ⟨rfl, found⟩, kind, value⟩
  · rintro ⟨x, ⟨path, found⟩, kind, value⟩
    rw [path] at found
    exact ⟨_, found, kind, value⟩

/-- Measured software is free of faults exactly if the entries that count are expected and every
expected path is measured. -/
theorem faults_eq_nil_iff {flavor : Uuid} {ms : List Measurement} :
    Measurement.faults flavor s.entries ms = [] ↔
      (∀ e : Measurement, e.CountsIn ms → s.Expects e) ∧ s.CoveredBy ms := by
  rw [Measurement.faults_eq_nil_iff]
  refine and_congr ?_ ?_
  · simp only [Measurement.get?_byPath_eq_some_iff, expects_iff]
    constructor
    · exact fun known e counts => known e.path e ⟨rfl, counts⟩
    · rintro known path a ⟨rfl, counts⟩
      exact known a counts
  · constructor
    · intro covered path x found
      obtain ⟨a, ha⟩ := covered path _ (get?_byPath_entries_iff
        (e := ⟨x.kind, path, x.value, x.includes, x.excludes⟩).mpr ⟨rfl, found⟩)
      obtain ⟨here, counts⟩ := Measurement.get?_byPath_eq_some_iff.mp ha
      exact ⟨a, counts.mem, here⟩
    · intro covered path x found
      obtain ⟨rfl, entered⟩ := get?_byPath_entries_iff.mp found
      obtain ⟨e, he, same⟩ := covered x.path _ entered
      obtain ⟨l, counts, here⟩ := Measurement.exists_countsIn he
      exact ⟨l, Measurement.get?_byPath_eq_some_iff.mpr ⟨here.trans same, counts⟩⟩

/-- All entries are expected exactly if those that count are and the others agree with them. -/
theorem forall_expects_iff {ms : List Measurement} :
    (∀ e ∈ ms, s.Expects e) ↔ (∀ e : Measurement, e.CountsIn ms → s.Expects e) ∧
      ∀ e ∈ ms, ∀ l : Measurement, l.CountsIn ms → l.path = e.path → l.agrees e = true := by
  simp only [Expects, Measurement.agrees_iff, Text.sameIgnoringCase, beq_iff_eq]
  constructor
  · intro each
    refine ⟨fun e counts => each e counts.mem, fun e he l counts same => ?_⟩
    obtain ⟨x, found, kind, value⟩ := each e he
    obtain ⟨y, found', kind', value'⟩ := each l counts.mem
    obtain rfl : x = y := by simpa [same, found] using found'
    exact ⟨kind'.trans kind.symm, value'.trans value.symm⟩
  · rintro ⟨last, agree⟩ e he
    obtain ⟨l, counts, same⟩ := Measurement.exists_countsIn he
    obtain ⟨x, found, kind, value⟩ := last l counts
    obtain ⟨kind', value'⟩ := agree e he l counts same
    exact ⟨x, same ▸ found, kind'.symm.trans kind, value'.symm.trans value⟩

end Software

/-! ## The check of the measured paths -/

namespace Check

variable [CertificateLibrary] {m : HostManifest} {flavor : Uuid} {log : MeasurementLog}

theorem findings_measurements_of_documents (document : m.Documents flavor log)
    (expected : List Measurement) : (measurements flavor expected).findings m =
      .ok (.ofFaults (Measurement.faults flavor expected log.measurements)) := by
  rw [findings, HostManifest.inspectLog_of_documents document]
  rfl

/-- On a host with a document about the flavor, the check gives a result. It is trusted exactly if
the entries that count for their paths are expected and every expected path is measured. All
entries are as expected exactly if, beyond this, the entries for each path agree with the one
that counts. -/
theorem trusted_iff_of_documents (s : Software) (markers : List FlavorPart)
    (document : m.Documents flavor log) :
    ∃ r, ((measurements flavor s.entries).rule markers).judge m = .ok r ∧
      (r.trusted = true ↔
        (∀ e : Measurement, e.CountsIn log.measurements → s.Expects e) ∧
          s.CoveredBy log.measurements) ∧
      ((∀ e ∈ log.measurements, s.Expects e) ∧ s.CoveredBy log.measurements ↔
        r.trusted = true ∧ ∀ e ∈ log.measurements, ∀ l : Measurement,
          l.CountsIn log.measurements → l.path = e.path → l.agrees e = true) := by
  have judged := findings_measurements_of_documents document s.entries
  refine ⟨_, by simp [rule, judged]; rfl, ?_⟩
  have verdict : (RuleResult.trusted ((measurements flavor s.entries).result markers
      (.ofFaults (Measurement.faults flavor s.entries log.measurements)))) = true ↔
      (∀ e : Measurement, e.CountsIn log.measurements → s.Expects e) ∧
        s.CoveredBy log.measurements := by
    rw [RuleResult.trusted_iff]
    exact Software.faults_eq_nil_iff
  refine ⟨verdict, ?_⟩
  rw [verdict, Software.forall_expects_iff]
  exact and_right_comm

end Check

namespace Sample

/-- Software with one file. -/
def installed : Software := ⟨.ofList [("/a", ⟨.file, "ab", none, none⟩)], ""⟩

/-- A host that has measured the path of that file, with one entry for each value. -/
def measuring (values : List String) : HostManifest :=
  { HostManifest.blank with measurementXmls :=
    ["<Measurement Uuid=\"5f5f5f5f-5f5f-5f5f-5f5f-5f5f5f5f5f5f\">" ++
      String.join (values.map fun value => "<File Path=\"/a\">" ++ value ++ "</File>") ++
      "</Measurement>"] }

/-- The document of such a host, told by reading it. -/
theorem documents_measuring (values : List String) (ms : List Measurement)
    (read : ((MeasurementLog.findFor flavorId (measuring values).measurementXmls).toOption.map
      fun found => found.map MeasurementLog.measurements == some ms) = some true) :
    ∃ log, (measuring values).Documents flavorId log ∧ log.measurements = ms := by
  obtain ⟨found, hfound, entries⟩ := exists_ok_of_map_eq_some read
  obtain ⟨log, rfl, same⟩ : ∃ log, found = some log ∧ log.measurements = ms := by
    simpa using entries
  exact ⟨log, hfound, same⟩

theorem get?_installed (path : String) : installed.measurements.get? path =
    if path = "/a" then some ⟨.file, "ab", none, none⟩ else none := by
  rw [installed, NameMap.get?_ofList]
  exact Sorted.lookup_cons _ _ _

set_option maxRecDepth 2000 in
/-- Letter case does not count. -/
theorem trusted_measuring : ∃ log, (measuring ["AB"]).Documents flavorId log ∧
    ∃ r, ((Check.measurements flavorId installed.entries).rule [.software]).judge
        (measuring ["AB"]) = .ok r ∧ r.trusted = true := by
  obtain ⟨log, document, entries⟩ :=
    documents_measuring ["AB"] [⟨.file, "/a", "AB", none, none⟩] (by decide)
  obtain ⟨r, judged, verdict, -⟩ := Check.trusted_iff_of_documents installed [.software] document
  refine ⟨log, document, r, judged, verdict.mpr ⟨fun e counts => ?_, fun path x found => ?_⟩⟩
  · obtain rfl := List.mem_singleton.mp (entries ▸ counts.mem)
    exact ⟨_, (get?_installed "/a").trans (if_pos rfl), rfl, by decide⟩
  · have here : path = "/a" := by
      rw [get?_installed] at found
      by_contra other
      simp [other] at found
    exact ⟨_, entries ▸ List.mem_singleton_self _, here.symm⟩

set_option maxRecDepth 2000 in
/-- An entry that is not expected is hidden by a later one for its path: the host is trusted. -/
theorem trusted_beside_hidden : ∃ log, (measuring ["00", "ab"]).Documents flavorId log ∧
    ∃ r, ((Check.measurements flavorId installed.entries).rule [.software]).judge
        (measuring ["00", "ab"]) = .ok r ∧ r.trusted = true ∧
      ¬ ((∀ e ∈ log.measurements, installed.Expects e) ∧
        installed.CoveredBy log.measurements) := by
  obtain ⟨log, document, entries⟩ := documents_measuring ["00", "ab"]
    [⟨.file, "/a", "00", none, none⟩, ⟨.file, "/a", "ab", none, none⟩] (by decide)
  obtain ⟨r, judged, trusted⟩ : ∃ r,
      ((Check.measurements flavorId installed.entries).rule [.software]).judge
        (measuring ["00", "ab"]) = .ok r ∧ r.trusted = true :=
    exists_ok_of_map_eq_some (by decide)
  refine ⟨log, document, r, judged, trusted, fun claimed => ?_⟩
  obtain ⟨x, found, -, value⟩ :=
    claimed.1 ⟨.file, "/a", "00", none, none⟩ (entries ▸ List.mem_cons_self)
  obtain rfl : (⟨.file, "ab", none, none⟩ : SoftwareMeasurement) = x := by
    simpa [get?_installed] using found
  exact absurd value (by decide)

end Sample

end HostTrust
