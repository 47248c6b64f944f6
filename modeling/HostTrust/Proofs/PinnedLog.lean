/-
HostTrust.Proofs.PinnedLog — what a trusted verdict about software says of the
measurement log.

Three checks of a software flavor look the log up again, each for itself, and
two of them ask for its algorithm. That they agree is what makes them one
guarantee, `Flavor.Pins`: all reported texts are documents, the first one about
the flavor uses the flavor's algorithm, and the hash chain over its values leads
both to the digest that it states and to the one that the flavor expects. A
trusted verdict gives this, and where it holds the checks of the algorithm and
of the digest are passed (`pins_of_trusted`).

`HostManifest.firstDocument_iff` says which document the checks look at;
`Check.passes_measurementAlgorithm_iff` and `Check.passes_cumulativeHash_iff`
say what they ask of it.
-/
import HostTrust.Proofs.Agreement
import HostTrust.Proofs.Replay
import HostTrust.Proofs.SoftwareComparison

namespace HostTrust

open Outcome

/-! ## The algorithm and the chain of a log -/

/-- The bank is the one that a name gives, or the default one where there is no name. -/
def Bank.NamedBy (b : Bank) (name : Option String) : Prop :=
  name.elim (some MeasurementLog.defaultAlgorithm) Bank.ofName? = some b

example : Bank.NamedBy .sha384 none := rfl

theorem Bank.parse_eq_ok_iff {name : String} {b : Bank} :
    Bank.parse name = .ok b ↔ Bank.ofName? name = some b := by
  -- The equation that `rw` derives for `parse` looks into the names of banks.
  delta Bank.parse
  cases Bank.ofName? name <;> simp

namespace MeasurementLog

variable {d : MeasurementLog} {b : Bank} {hash : String}

theorem algorithm_eq_ok_iff : d.algorithm = .ok b ↔ b.NamedBy d.digestAlgorithm := by
  cases stated : d.digestAlgorithm with
  | none => simp [algorithm, stated, Bank.NamedBy]
  | some name =>
    rw [algorithm_of_names stated, Bank.NamedBy, Option.elim_some]
    cases Bank.ofName? name <;> simp

/-- The values of the entries, in the order of the document. -/
def values (d : MeasurementLog) : List String := d.measurements.map Measurement.value

theorem replay_eq_ok_iff : d.replay = .ok hash ↔
    ∃ b : Bank, b.NamedBy d.digestAlgorithm ∧ b.ChainsTo d.values hash := by
  simp only [replay, bind_eq_ok_iff, mapError_eq_ok_iff, Bank.replay_eq_ok_iff,
    algorithm_eq_ok_iff, values]

/-- The chain over the values leads to the digest that the document states, and to the expected
one, up to letter case. -/
structure Verifies (d : MeasurementLog) (b : Bank) (expected : String) : Prop where
  algorithm : b.NamedBy d.digestAlgorithm
  chain : ∃ hash stated, b.ChainsTo d.values hash ∧ d.cumulativeHash = some stated ∧
    Text.sameIgnoringCase hash stated = true ∧
    Text.sameIgnoringCase hash (Text.trim expected) = true

theorem algorithmFaults_eq_ok_nil_iff :
    d.algorithmFaults b = .ok [] ↔ b.NamedBy d.digestAlgorithm := by
  rw [← algorithm_eq_ok_iff, algorithmFaults]
  cases known : d.algorithm with
  | error e => simp [Except.mapError]
  | ok actual => by_cases same : actual = b <;> simp [same, Except.mapError]

/-- A text without characters is no hash. -/
theorem exists_stated_iff {stated : Option String} (any : hash.toList ≠ []) :
    Text.sameIgnoringCase hash (stated.getD "") = true ↔
      ∃ text, stated = some text ∧ Text.sameIgnoringCase hash text = true := by
  cases stated with
  | some text => simp
  | none => simpa [Text.sameIgnoringCase] using any

theorem cumulativeFaults_eq_nil_iff {flavor : Uuid} {expected : String} :
    d.cumulativeFaults flavor expected = [] ↔ ∃ b : Bank, d.Verifies b expected := by
  rw [cumulativeFaults]
  constructor
  · intro none
    cases replayed : d.replay with
    | error e => simp [replayed] at none
    | ok hash =>
      obtain ⟨b, named, chain⟩ := replay_eq_ok_iff.mp replayed
      have same : Text.sameIgnoringCase hash (d.cumulativeHash.getD "") = true ∧
          Text.sameIgnoringCase hash (Text.trim expected) = true := by
        simpa [replayed] using none
      obtain ⟨stated, here, agrees⟩ := (exists_stated_iff chain.ne_nil).mp same.1
      exact ⟨b, named, hash, stated, chain, here, agrees, same.2⟩
  · rintro ⟨b, named, hash, stated, chain, here, agrees, meets⟩
    have replayed : d.replay = .ok hash := replay_eq_ok_iff.mpr ⟨b, named, chain⟩
    simp [replayed, here, agrees, meets]

end MeasurementLog

/-! ## The log of a host -/

namespace HostManifest

variable {m : HostManifest} {flavor : Uuid} {d : MeasurementLog}

/-- Every reported text is a document, and this is the first of those about the flavor. -/
def FirstDocument (m : HostManifest) (flavor : Uuid) (d : MeasurementLog) : Prop :=
  ∃ before after, List.Forall₂ (fun xml log => MeasurementLog.parse xml = .ok log)
      m.measurementXmls (before ++ d :: after) ∧
    (∀ log ∈ before, log.uuid ≠ flavor) ∧ d.uuid = flavor

theorem firstDocument_iff : m.Documents flavor d ↔ m.FirstDocument flavor d := by
  simp only [Documents, MeasurementLog.findFor, bind_eq_ok_iff, pure_eq_ok_iff, mapM_eq_ok_iff,
    List.find?_eq_some_iff_append, beq_iff_eq, Bool.not_eq_true', beq_eq_false_iff_ne]
  constructor
  · rintro ⟨_, read, here, before, after, rfl, others⟩
    exact ⟨before, after, read, others, here⟩
  · rintro ⟨before, after, read, others, here⟩
    exact ⟨_, read, here, before, after, rfl, others⟩

/-- What is found in the document about a flavor is nothing only if there is such a document. -/
theorem inspectLog_eq_ok_nil_iff
    {inspect : MeasurementLog → Except VerificationError (List Fault)} :
    m.inspectLog flavor inspect = .ok [] ↔
      ∃ d, m.FirstDocument flavor d ∧ inspect d = .ok [] := by
  simp only [← firstDocument_iff, Documents]
  unfold inspectLog
  cases MeasurementLog.findFor flavor m.measurementXmls with
  | error e => simp [Except.mapError]
  | ok found => cases found <;> simp [Except.mapError]

end HostManifest

namespace Check

variable [CertificateLibrary] {m : HostManifest} {flavor : Uuid} {bank : Bank} {expected : String}

theorem passes_iff_of_inspectLog {c : Check}
    {inspect : MeasurementLog → Except VerificationError (List Fault)}
    (h : c.findings m = .ofFaults <$> m.inspectLog flavor inspect) :
    c.Passes m ↔ ∃ d, m.FirstDocument flavor d ∧ inspect d = .ok [] := by
  rw [← HostManifest.inspectLog_eq_ok_nil_iff, Passes, h]
  simp [Findings.ofFaults]

theorem passes_measurementAlgorithm_iff : (measurementAlgorithm flavor bank).Passes m ↔
    ∃ d, m.FirstDocument flavor d ∧ bank.NamedBy d.digestAlgorithm := by
  rw [passes_iff_of_inspectLog rfl]
  simp only [MeasurementLog.algorithmFaults_eq_ok_nil_iff]

theorem passes_cumulativeHash_iff : (cumulativeHash flavor expected).Passes m ↔
    ∃ d, m.FirstDocument flavor d ∧ ∃ b : Bank, d.Verifies b expected := by
  rw [passes_iff_of_inspectLog rfl]
  simp only [pure_eq_ok_iff, MeasurementLog.cumulativeFaults_eq_nil_iff]

end Check

theorem HostManifest.FirstDocument.unique {m : HostManifest} {flavor : Uuid}
    {d d' : MeasurementLog} (h : m.FirstDocument flavor d) (h' : m.FirstDocument flavor d') :
    d = d' := by
  rw [← firstDocument_iff, Documents] at h h'
  simpa [h] using h'

/-! ## The log that a flavor pins -/

/-- The log that the host reports is the one that the flavor describes: its first document about
the flavor uses the algorithm of the flavor, and the chain over its values leads to the digest that
it states and to the one of the flavor. -/
def Flavor.Pins (f : Flavor) (m : HostManifest) : Prop :=
  ∃ metadata software d, ∃ b : Bank, f.metadata = some metadata ∧ f.software = some software ∧
    b.NamedBy metadata.description.digestAlgorithm ∧ m.FirstDocument metadata.id d ∧
    d.Verifies b software.cumulativeHash

namespace RuleBuilder

variable {c : RuleContext} {cs : List Check} {rules : List Rule} {m : HostManifest}

theorem requireMetadata_eq_ok_iff {f : Flavor} {metadata : FlavorMeta} :
    f.requireMetadata = .ok metadata ↔ f.metadata = some metadata := by
  unfold Flavor.requireMetadata
  cases f.metadata <;> simp

/-- The checks of software, and what the flavor must have for them. -/
theorem softwareChecks_eq_ok_iff : softwareChecks c = .ok cs ↔
    ∃ metadata software, ∃ b : Bank, c.flavor.metadata = some metadata ∧
      c.flavor.software = some software ∧ b.NamedBy metadata.description.digestAlgorithm ∧
      [.measurementAlgorithm metadata.id b,
        .cumulativeHash metadata.id software.cumulativeHash,
        .measurements metadata.id software.entries] = cs := by
  rw [softwareChecks, bind_eq_ok_iff]
  simp only [requireMetadata_eq_ok_iff]
  refine exists_congr fun metadata => ?_
  cases c.flavor.software with
  | none => simp
  | some software =>
    cases named : metadata.description.digestAlgorithm with
    | none => simp [Bank.NamedBy]
    | some name => simp [Bank.NamedBy, Bank.parse_eq_ok_iff]

/-- Of the checks of software, the first two pin the log. -/
theorem pins_iff_of_softwareChecks [CertificateLibrary] (h : softwareChecks c = .ok cs) :
    c.flavor.Pins m ↔ ∀ k ∈ cs.take 2, k.Passes m := by
  obtain ⟨metadata, software, b, described, measured, named, rfl⟩ :=
    softwareChecks_eq_ok_iff.mp h
  simp only [List.take_succ_cons, List.take_zero, List.forall_mem_cons, List.not_mem_nil,
    false_implies, implies_true, and_true, Check.passes_measurementAlgorithm_iff,
    Check.passes_cumulativeHash_iff]
  constructor
  · rintro ⟨metadata', software', d, b', described', measured', named', first, verifies⟩
    obtain rfl : metadata = metadata' := by simpa [described] using described'
    obtain rfl : software = software' := by simpa [measured] using measured'
    obtain rfl : b = b' := Option.some.inj (named.symm.trans named')
    exact ⟨⟨d, first, verifies.algorithm⟩, d, first, b, verifies⟩
  · rintro ⟨⟨d, first, algorithm⟩, d', first', b', verifies⟩
    obtain rfl := first.unique first'
    obtain rfl : b = b' := Option.some.inj (algorithm.symm.trans verifies.algorithm)
    exact ⟨metadata, software, d, b, described, measured, named, first, verifies⟩

theorem rules_of_softwareChecks [CertificateLibrary] (h : softwareChecks c = .ok cs) :
    RuleBuilder.intel.rules c .software = .ok (cs.map (·.rule [.software])) := by
  simp [RuleBuilder.intel, ofChecks, h]

/-- Where a flavor pins the log, its rules can be built. -/
theorem exists_softwareChecks_of_pins (pins : c.flavor.Pins m) :
    ∃ cs, softwareChecks c = .ok cs := by
  obtain ⟨metadata, software, d, b, described, measured, named, -, -⟩ := pins
  exact ⟨_, softwareChecks_eq_ok_iff.mpr ⟨metadata, software, b, described, measured, named, rfl⟩⟩

end RuleBuilder

namespace TrustVerifier

variable [CertificateLibrary] {v : TrustVerifier} {m : HostManifest} {f : SignedFlavor} {time : Int}

/-- **A trusted host has the log that the flavor pins.** A verdict of trust about software says
that the log the host reports is the one that the flavor describes. Where it is, the rules about its
algorithm and about its digest can be applied and are trusted, whatever else is wrong. -/
theorem pins_of_trusted (registry : v.registry = .standard)
    (vendor : RuleContext.vendor ⟨f, m, v.anchors, time⟩ = .ok .intel)
    (tpm : RuleContext.tpmVersion ⟨f, m, v.anchors, time⟩ = .ok .v20)
    (described : f.flavor.part = .ok .software) :
    (∀ report, v.verifyFlavorAt m f time = .ok report → report.trusted = true →
      f.flavor.Pins m) ∧
    (f.flavor.Pins m → ∃ algorithm digest entries,
      RuleBuilder.intel.rules ⟨f, m, v.anchors, time⟩ .software =
        .ok [algorithm, digest, entries] ∧
      algorithm.name = "XmlMeasurementLogDigestEquals" ∧
      digest.name = "XmlMeasurementLogIntegrity" ∧
      (∃ r, algorithm.judge m = .ok r ∧ r.trusted = true) ∧
      ∃ r, digest.judge m = .ok r ∧ r.trusted = true) := by
  constructor
  · intro report ok trusted
    have clean := ((trusted_of_verifyFlavorAt ok).mp trusted).2
    obtain ⟨part, vendor', tpm', builder, static, derived, hpart, hvendor, htpm, hbuilder,
      hstatic, -, verdict⟩ := faultless_iff_of_results (results_of_verifyFlavorAt ok)
    obtain rfl : .software = part := by simpa [described] using hpart
    obtain rfl : .intel = vendor' := by simpa [vendor] using hvendor
    obtain rfl : .v20 = tpm' := by simpa [tpm] using htpm
    obtain rfl : .intel = builder := by
      rw [registry, BuilderRegistry.standard_intel] at hbuilder
      exact Option.some.inj hbuilder
    obtain ⟨cs, hcs, same⟩ := RuleBuilder.passes_ofChecks_iff (m := m) hstatic
    have passed : ∀ k ∈ cs, k.Passes m := same.mp (verdict.mp clean).1
    exact (RuleBuilder.pins_iff_of_softwareChecks hcs).mpr fun k hk =>
      passed k (List.mem_of_mem_take hk)
  · intro pins
    obtain ⟨cs, hcs⟩ :=
      RuleBuilder.exists_softwareChecks_of_pins (c := ⟨f, m, v.anchors, time⟩) pins
    have passed := (RuleBuilder.pins_iff_of_softwareChecks hcs).mp pins
    obtain ⟨metadata, software, b, -, -, -, rfl⟩ := RuleBuilder.softwareChecks_eq_ok_iff.mp hcs
    refine ⟨_, _, _, RuleBuilder.rules_of_softwareChecks hcs, rfl, rfl, ?_, ?_⟩
    · obtain ⟨r, judged, clean⟩ := Check.passes_rule_iff.mpr (passed _ (.head _))
      exact ⟨r, judged, RuleResult.trusted_iff.mpr clean⟩
    · obtain ⟨r, judged, clean⟩ := Check.passes_rule_iff.mpr (passed _ (.tail _ (.head _)))
      exact ⟨r, judged, RuleResult.trusted_iff.mpr clean⟩

end TrustVerifier

namespace Sample

/-- What SHA-1 makes of the measurements `ab` and `0102`, one after the other. -/
def chainHash : String := "df14dcb9db1dd99e12fffb633da21bf23b351788"

/-- Two measured paths, and their digest with blanks around it. -/
def linked : Software :=
  ⟨.ofList [("/a", ⟨.file, "ab", none, none⟩), ("/b", ⟨.symlink, "0102", none, none⟩)],
    " " ++ chainHash ++ "\n"⟩

/-- A flavor for them, measured with SHA-1. -/
def pinning : SignedFlavor :=
  ⟨{ flavor .software [] with
      metadata := some ⟨flavorId, some "INTEL",
        ⟨some "software", none, none, some "2.0", none, none, some "SHA1"⟩⟩
      software := some linked }, ""⟩

/-- A host that has measured them, with a digest in capitals. -/
def chained : HostManifest :=
  { HostManifest.blank with measurementXmls :=
    ["<Measurement Uuid=\"5f5f5f5f-5f5f-5f5f-5f5f-5f5f5f5f5f5f\" DigestAlg=\"sha-1\">" ++
      "<File Path=\"/a\">AB</File><Symlink Path=\"/b\">0102</Symlink><CumulativeHash>" ++
      String.ofList (chainHash.toList.map Char.toUpper) ++ "</CumulativeHash></Measurement>"] }

/-- The host is trusted, so the flavor pins its log. -/
theorem pins_chained :
    RuleContext.vendor ⟨pinning, chained, lenient.anchors, moment⟩ = .ok .intel ∧
    RuleContext.tpmVersion ⟨pinning, chained, lenient.anchors, moment⟩ = .ok .v20 ∧
    pinning.flavor.part = .ok .software ∧
    ∃ report, lenient.verifyFlavorAt chained pinning moment = .ok report ∧
      report.trusted = true ∧ pinning.flavor.Pins chained := by
  have vendor : RuleContext.vendor ⟨pinning, chained, lenient.anchors, moment⟩ = .ok .intel := by
    decide +kernel
  have tpm : RuleContext.tpmVersion ⟨pinning, chained, lenient.anchors, moment⟩ = .ok .v20 := by
    decide +kernel
  have described : pinning.flavor.part = .ok .software := by decide +kernel
  obtain ⟨rs, hrs, any, clean⟩ : ∃ rs, lenient.results chained moment pinning = .ok rs ∧
      rs ≠ [] ∧ ∀ x ∈ rs, x.faults = [] := exists_of_faultless (by decide +kernel)
  have ok := TrustVerifier.verifyFlavorAt_eq_ok_iff.mpr ⟨rs, hrs, rfl⟩
  have trusted := TrustReport.trusted_addResults_empty.mpr ⟨any, clean⟩
  have pins := (TrustVerifier.pins_of_trusted (v := lenient) rfl vendor tpm described).1
    _ ok trusted
  exact ⟨vendor, tpm, described, _, ok, trusted, pins⟩

end Sample

end HostTrust
