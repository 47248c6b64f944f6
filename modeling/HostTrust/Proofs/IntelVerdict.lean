/-
HostTrust.Proofs.IntelVerdict — what a trusted Intel host is.

For the parts that a flavor describes by registers, the verdict of
`verifyFlavorAt` is sound and complete (`trusted_iff_of_intel`): a host is
trusted if there was anything to check, it presents a trusted and valid
attestation key certificate where the part asks for one, it meets every policy
of the flavor, and the flavor is signed unless signatures are left out. No
policy is forgotten, and nothing else is asked for.

`Sample` holds a host, a signed flavor and a verifier that trusts it. Its keys are
RSA keys, and so its library is `CertificateLibrary.rsa`.
-/
import HostTrust.Proofs.RuleSet

namespace HostTrust

namespace RuleBuilder

variable [CertificateLibrary]

/-- Of the parts described by registers, only the platform asks for something of its own. -/
theorem passes_intel_iff {c : RuleContext} {part : FlavorPart} {rules : List Rule}
    {m : HostManifest} (registers : part = .platform ∨ part = .os ∨ part = .hostUnique)
    (h : RuleBuilder.intel.rules c part = .ok rules) :
    (∀ r ∈ rules, r.Passes m) ↔
      (part = .platform → m.PresentsAik c.anchors.privacyCa c.time) := by
  obtain ⟨cs, hcs, same⟩ := passes_ofChecks_iff (m := m) h
  rw [same]
  rcases registers with rfl | rfl | rfl
  · obtain rfl : [Check.aikCertificate c.anchors.privacyCa c.time] = cs := by simpa using hcs
    simp [Check.passes_aikCertificate_iff]
  · obtain rfl : [] = cs := by simpa using hcs
    simp
  · obtain rfl : [] = cs := by simpa using hcs
    simp

end RuleBuilder

theorem BuilderRegistry.standard_intel [CertificateLibrary] :
    BuilderRegistry.standard.builder? .intel .v20 = some .intel := rfl

namespace TrustVerifier

variable [CertificateLibrary] {v : TrustVerifier} {m : HostManifest} {f : SignedFlavor} {time : Int}

/-- What an Intel flavor asks for altogether. -/
theorem faultless_iff_of_intel {part : FlavorPart} {rs : List RuleResult}
    (registry : v.registry = .standard)
    (vendor : RuleContext.vendor ⟨f, m, v.anchors, time⟩ = .ok .intel)
    (tpm : RuleContext.tpmVersion ⟨f, m, v.anchors, time⟩ = .ok .v20)
    (described : f.flavor.part = .ok part)
    (registers : part = .platform ∨ part = .os ∨ part = .hostUnique)
    (h : v.results m time f = .ok rs) :
    (∀ x ∈ rs, x.faults = []) ↔
      (part = .platform → m.PresentsAik v.anchors.privacyCa time) ∧
      (∀ p ∈ f.flavor.pcrs, p.MetBy m) ∧
      (v.skipSignature = false → f.SignedUnder v.anchors) := by
  obtain ⟨part', vendor', tpm', builder, static, derived, hpart, hvendor, htpm, hbuilder,
    hstatic, hderived, verdict⟩ := faultless_iff_of_results h
  obtain rfl : part = part' := by simpa [described] using hpart
  obtain rfl : .intel = vendor' := by simpa [vendor] using hvendor
  obtain rfl : .v20 = tpm' := by simpa [tpm] using htpm
  obtain rfl : .intel = builder := by
    rw [registry, BuilderRegistry.standard_intel] at hbuilder
    simpa using hbuilder
  have own := RuleBuilder.passes_intel_iff (m := m) registers hstatic
  have policies := RuleContext.passes_policyRules_iff (m := m) rfl hderived
  rw [verdict, own, policies]
  rfl

/-- The verdict against an Intel flavor is sound and complete. -/
theorem trusted_iff_of_intel {part : FlavorPart} {report : TrustReport}
    (registry : v.registry = .standard)
    (vendor : RuleContext.vendor ⟨f, m, v.anchors, time⟩ = .ok .intel)
    (tpm : RuleContext.tpmVersion ⟨f, m, v.anchors, time⟩ = .ok .v20)
    (described : f.flavor.part = .ok part)
    (registers : part = .platform ∨ part = .os ∨ part = .hostUnique)
    (ok : v.verifyFlavorAt m f time = .ok report) :
    report.trusted = true ↔ report.results ≠ [] ∧
      (part = .platform → m.PresentsAik v.anchors.privacyCa time) ∧
      (∀ p ∈ f.flavor.pcrs, p.MetBy m) ∧
      (v.skipSignature = false → f.SignedUnder v.anchors) := by
  have evaluated := results_of_verifyFlavorAt ok
  rw [trusted_of_verifyFlavorAt ok,
    faultless_iff_of_intel registry vendor tpm described registers evaluated]

end TrustVerifier

/-! ## A trusted host -/

namespace Sample

/-- A certificate that certifies itself, from the start of 2020 to the start of 2030. -/
def signerBytes : Bytes :=
  [0x308201293081c4020101300d06092a864886f70d01010b05003011310f300d06035504030c065369676e65,
    0x72301e170d3230303130313030303030305a170d3330303130313030303030305a3011310f300d06035504,
    0x030c065369676e6572306a300d06092a864886f70d01010105000359003056025100bed9d4bb0510486e75,
    0xdb7cebf08e9a19b5f82c695e6eb713da0de4ee375f23676f5a831f8c2fc1d0b7a72e6441168b2578023c92,
    0xae599925d07806e9a335d634178013721ec05566e72431fae85591c7020103300d06092a864886f70d0101,
    0x0b05000351005df4c45a0da547ec5ea301f834c1ef3893db8fde58c9282d665327a879a53db541d37c7246,
    0x408e400bdbd7109bb7b40d1f115050724e9a904fa9c8cac432576d2dc12a2cef9b8acbbac0fc6c591d6af6
  ].flatMap (Digest.bigEndian 43)

def signer? : Option Certificate := Certificate.ofBytes? signerBytes

/-- Another one for the same years, with a key of its own. -/
def aikText : String :=
  "MGkwUwIBATANBgkqhkiG9w0BAQsFADAAMB4XDTIwMDEwMTAwMDAwMFoXDTMwMDEwMTAwMDAwMFow" ++
  "ADAbMA0GCSqGSIb3DQEBAQUAAwoAMAcCAgyhAgERMA0GCSqGSIb3DQEBCwUAAwMAAAE="

/-- Both are trusted, each for its purpose. -/
def anchors : TrustAnchors where
  privacyCa := ⟨(Certificate.decode aikText CertificateUse.aik.role).toOption.toList⟩
  flavorCa := ⟨signer?.toList⟩
  flavorSigning := signer?
  assetTagCa := .empty

def flavorId : Uuid := ⟨List.replicate 16 0x5F, rfl⟩

/-- An Intel flavor for a part, with policies. -/
def flavor (part : FlavorPart) (pcrs : List PcrPolicy) : Flavor where
  metadata := some ⟨flavorId, some "INTEL",
    { FlavorDescription.blank with flavorPart := some part.name, tpmVersion := some "2.0" }⟩
  bios := none
  hardware := none
  pcrs := pcrs
  external := none
  software := none

def event (measurement : String) : Event := ⟨"0x501", "module", .empty, measurement⟩

/-- Two events and the value that they lead to. -/
def events : List Event := [event "01", event "02"]

def value : String := "daf15993aa3f77e19d37a8954a0efe369d33b77a"

def register : Pcr := ⟨⟨10, by decide⟩, .sha1⟩

/-- A policy for the value and for the events. -/
def policy : PcrPolicy := ⟨register, value, true, some ⟨events, .empty⟩, none⟩

/-- A signed flavor for the platform, which asks for the policy. -/
def platform : SignedFlavor := ⟨flavor .platform [policy],
  "L6naYtuk7bbncaRjX1LEB6FjMD/56gk2hsai42WbjhRdTYUMAiH/TTuNOF36LmtljjzkR5m3GXUAlXR6" ++
  "IdCEOCmiGpGmTYhyiPMy3lBIsFk="⟩

/-- A signed flavor for the operating system with the same policy. -/
def os : SignedFlavor := ⟨flavor .os [policy],
  "ktrOuXkSsYWn+T7Y1CoZ5kIR+2kGRGAw7gBrH5kW2UgK428d8ihjMpVwWtIc3Y+5TdrXqaaTMM11TXc2" ++
  "6EAk/Eu1PAGKB9CGfoBvc6LkG5k="⟩

def verifier : TrustVerifier := .ofAnchors anchors

/-- A host that satisfies both flavors. -/
def manifest : HostManifest where
  hostInfo := .blank
  pcrs := some ⟨[⟨register, value⟩], [], .insert .empty .sha1 [⟨register, events⟩]⟩
  aikCertificate := some aikText
  bindingKeyCertificate := none
  assetTagDigest := none
  measurementXmls := []

/-- A moment in 2023. -/
def moment : Int := 1700000000

/-- What evaluating a flavor has to give for a host that satisfies it. -/
def faultless (rs : List RuleResult) : Bool := !rs.isEmpty && rs.all RuleResult.trusted

theorem exists_of_faultless {results : Except VerificationError (List RuleResult)}
    (h : results.toOption.map faultless = some true) :
    ∃ rs, results = .ok rs ∧ rs ≠ [] ∧ ∀ x ∈ rs, x.faults = [] := by
  obtain ⟨rs, hrs, clean⟩ := Outcome.exists_ok_of_map_eq_some h
  exact ⟨rs, hrs, by simpa [faultless] using clean⟩

/-- The host passes the rules of the flavor for its platform. -/
theorem results_platform : ∃ rs, verifier.results manifest moment platform = .ok rs ∧
    rs ≠ [] ∧ ∀ x ∈ rs, x.faults = [] :=
  exists_of_faultless (by decide +kernel)

theorem trusted_platform : ∃ report,
    verifier.verifyFlavorAt manifest platform moment = .ok report ∧ report.trusted = true ∧
      manifest.PresentsAik anchors.privacyCa moment ∧ policy.MetBy manifest ∧
      platform.SignedUnder anchors := by
  obtain ⟨rs, hrs, any, clean⟩ := results_platform
  have ok : verifier.verifyFlavorAt manifest platform moment =
      .ok (TrustReport.empty.addResults rs) :=
    TrustVerifier.verifyFlavorAt_eq_ok_iff.mpr ⟨rs, hrs, rfl⟩
  have verdict := TrustVerifier.trusted_iff_of_intel (v := verifier) rfl
    (by decide +kernel) (by decide +kernel) (by decide +kernel) (.inl rfl) ok
  have trusted : (TrustReport.empty.addResults rs).trusted = true :=
    TrustReport.trusted_addResults_empty.mpr ⟨any, clean⟩
  obtain ⟨-, aik, met, signed⟩ := verdict.mp trusted
  exact ⟨_, ok, trusted, aik rfl, met policy (.head _), signed rfl⟩

end Sample

end HostTrust
