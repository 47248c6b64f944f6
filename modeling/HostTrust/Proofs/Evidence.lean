/-
HostTrust.Proofs.Evidence — a verdict rests on evidence, not on what a host says
about itself.

The evidence in the report of a host is its registers and event logs, the
certificate of its attestation key and its measurement documents. No check looks
at anything else (`Check.findings_of_sameEvidence`). The description of the host
can only choose the builder, and only for a flavor that does not say which
platform it is for: a text that is more than blanks leaves the host no say
(`Text.exists_trimmed?_of_solid`). So hosts with the same evidence have the same
outcome against flavors that name their platform
(`verifyAllOfAt_of_sameEvidence`). Whatever a host tells about its operating
system, its TPM or its asset tag, it gains nothing by it.
-/
import HostTrust.Proofs.Completion

namespace HostTrust

open Outcome

/-! ## Texts that say something -/

namespace Text

/-- The text has a character that is no blank. -/
def Solid (s : String) : Prop := ∃ c ∈ s.toList, isBlank c = false

theorem mem_dropWhile_isBlank {cs : List Char} {c : Char} (hc : c ∈ cs)
    (solid : isBlank c = false) : c ∈ cs.dropWhile isBlank := by
  rw [← List.takeWhile_append_dropWhile (p := isBlank) (l := cs), List.mem_append] at hc
  rcases hc with blank | kept
  · have : isBlank c = true := List.all_eq_true.mp List.all_takeWhile c blank
    simp [solid] at this
  · exact kept

/-- Trimming takes blanks only, so something is left of such a text. -/
theorem exists_trimmed?_of_solid {s : String} (h : Solid s) : ∃ t, trimmed? s = some t := by
  obtain ⟨c, hc, solid⟩ := h
  have kept : c ∈ trimChars s.toList := by
    unfold trimChars dropBlankEnd
    rw [List.mem_reverse]
    refine mem_dropWhile_isBlank ?_ solid
    rw [List.mem_reverse]
    exact mem_dropWhile_isBlank hc solid
  have left : (trim s).isEmpty = false := by
    rw [Bool.eq_false_iff]
    intro none
    rw [String.isEmpty_iff] at none
    have chars : trimChars s.toList = [] := by simpa [trim] using congrArg String.toList none
    simp [chars] at kept
  exact ⟨trim s, by simp [trimmed?, left]⟩

end Text

/-! ## The platform of a flavor -/

/-- The flavor says which vendor and which version of the TPM it is for. -/
def SignedFlavor.NamesPlatform (f : SignedFlavor) : Prop :=
  ∃ metadata vendor tpm, f.flavor.metadata = some metadata ∧
    metadata.vendor = some vendor ∧ Text.Solid vendor ∧
    metadata.description.tpmVersion = some tpm ∧ Text.Solid tpm

namespace RuleContext

variable {f : SignedFlavor}

/-- What a flavor declares is the same on every host. -/
theorem vendor_of_namesPlatform (h : f.NamesPlatform) (m m' : HostManifest)
    (anchors : TrustAnchors) (time : Int) :
    vendor ⟨f, m, anchors, time⟩ = vendor ⟨f, m', anchors, time⟩ := by
  obtain ⟨metadata, text, -, present, given, solid, -⟩ := h
  obtain ⟨t, trimmed⟩ := Text.exists_trimmed?_of_solid solid
  simp [vendor, flavor, Flavor.requireMetadata, present, declared, given, trimmed]

theorem tpmVersion_of_namesPlatform (h : f.NamesPlatform) (m m' : HostManifest)
    (anchors : TrustAnchors) (time : Int) :
    tpmVersion ⟨f, m, anchors, time⟩ = tpmVersion ⟨f, m', anchors, time⟩ := by
  obtain ⟨metadata, -, text, present, -, -, given, solid⟩ := h
  obtain ⟨t, trimmed⟩ := Text.exists_trimmed?_of_solid solid
  simp [tpmVersion, flavor, Flavor.requireMetadata, present, declared, given, trimmed]

end RuleContext

/-! ## Evidence -/

/-- Two hosts report the same, apart from what describes them. -/
structure HostManifest.SameEvidence (m m' : HostManifest) : Prop where
  pcrs : m.pcrs = m'.pcrs
  aikCertificate : m.aikCertificate = m'.aikCertificate
  measurementXmls : m.measurementXmls = m'.measurementXmls

/-- No check looks at anything but evidence. -/
theorem Check.findings_of_sameEvidence [CertificateLibrary] {m m' : HostManifest}
    (same : m.SameEvidence m') (c : Check) : c.findings m = c.findings m' := by
  have registers : ∀ inspect, m.inspectPcrs inspect = m'.inspectPcrs inspect := by
    intro inspect
    simp only [HostManifest.inspectPcrs, HostManifest.reportedPcrs, same.pcrs]
  have aik : ∀ authorities time, m.aikFaults authorities time = m'.aikFaults authorities time := by
    intro authorities time
    simp only [HostManifest.aikFaults, HostManifest.aikText?, same.aikCertificate]
  have document : ∀ flavor inspect, m.inspectLog flavor inspect = m'.inspectLog flavor inspect := by
    intro flavor inspect
    simp only [HostManifest.inspectLog, same.measurementXmls]
  cases c <;> simp only [findings, registers, aik, document]

namespace TrustVerifier

variable [CertificateLibrary] {v : TrustVerifier} {m m' : HostManifest} {time : Int}
  {f : SignedFlavor}

/-- The standard builders do not look at the host, except to be chosen. -/
theorem rulesFor_of_namesPlatform (registry : v.registry = .standard) (named : f.NamesPlatform) :
    v.rulesFor m time f = v.rulesFor m' time f := by
  have static : ∀ vendor tpm b part, BuilderRegistry.standard.builder? vendor tpm = some b →
      b.rules ⟨f, m, v.anchors, time⟩ part = b.rules ⟨f, m', v.anchors, time⟩ part := by
    intro vendor tpm b part registered
    rcases BuilderRegistry.standard_cases registered with ⟨-, rfl⟩ | ⟨-, layout, rfl⟩
    · cases part <;> rfl
    · cases part <;> rfl
  unfold rulesFor RuleContext.rules
  rw [RuleContext.vendor_of_namesPlatform named m m',
    RuleContext.tpmVersion_of_namesPlatform named m m', registry]
  refine bind_congr fun part => bind_congr fun vendor => bind_congr fun tpm => ?_
  unfold BuilderRegistry.builder
  cases registered : BuilderRegistry.standard.builder? vendor tpm with
  | none => rfl
  | some b =>
    simp only [pure_bind, static vendor tpm b part registered]
    rfl

/-- Each rule is a check, so it finds the same on the same evidence. -/
theorem results_of_sameEvidence (registry : v.registry = .standard) (same : m.SameEvidence m')
    (named : f.NamesPlatform) : v.results m time f = v.results m' time f := by
  have rules_eq : v.rulesFor m time f = v.rulesFor m' time f :=
    rulesFor_of_namesPlatform registry named
  cases outcome : v.rulesFor m time f with
  | error e =>
    have outcome' := rules_eq.symm.trans outcome
    unfold rulesFor at outcome outcome'
    rw [results, results, outcome, outcome']
    rfl
  | ok rules =>
    obtain ⟨part, cs, -, -, rfl⟩ := exists_listFor_of_rulesFor registry outcome
    rw [results_eq_mapM outcome, results_eq_mapM (rules_eq.symm.trans outcome), List.mapM_map,
      List.mapM_map]
    congr 1
    funext c
    simp only [Function.comp_apply, Check.rule, Check.findings_of_sameEvidence same c]

/-- Hosts with the same evidence have the same outcome against flavors that name their platform,
with any trusted certificates, at any moment, and whether signatures are checked or not. -/
theorem verifyAllOfAt_of_sameEvidence (anchors : TrustAnchors) (skip : Bool) (time : Int)
    {flavors : List SignedFlavor} (named : ∀ f ∈ flavors, f.NamesPlatform)
    (same : m.SameEvidence m') :
    TrustVerifier.verifyAllOfAt ⟨anchors, .standard, skip⟩ m flavors time =
      TrustVerifier.verifyAllOfAt ⟨anchors, .standard, skip⟩ m' flavors time := by
  unfold verifyAllOfAt
  rw [mapM_congr]
  intro f hf
  rw [results_of_sameEvidence rfl same (named f hf)]

end TrustVerifier

namespace Sample

open TrustVerifier

/-- The host with another description: an operating system and a version of the TPM that would
choose another builder, and a tag. -/
def disguised : HostManifest :=
  { manifest with
    hostInfo := { HostInfo.blank with osName := "VMware ESXi", tpmVersion := "1.2" }
    bindingKeyCertificate := some "key"
    assetTagDigest := some "00" }

/-- The host is trusted under this description too. -/
theorem trusted_disguised : (∀ f ∈ [platform], f.NamesPlatform) ∧
    manifest.SameEvidence disguised ∧ ∃ report,
      TrustVerifier.verifyAllOfAt ⟨anchors, .standard, false⟩ disguised [platform] moment =
        .ok report ∧ report.trusted = true := by
  have named : ∀ f ∈ [platform], f.NamesPlatform := by
    intro f hf
    obtain rfl := List.mem_singleton.mp hf
    exact ⟨_, _, _, rfl, rfl, ⟨'I', by decide, by decide⟩, rfl, ⟨'2', by decide, by decide⟩⟩
  have same : manifest.SameEvidence disguised := ⟨rfl, rfl, rfl⟩
  obtain ⟨report, ok, trusted⟩ := verifyAllOfAt_platform
  exact ⟨named, same, report,
    (verifyAllOfAt_of_sameEvidence anchors false moment named same).symm.trans ok, trusted⟩

end Sample

end HostTrust
