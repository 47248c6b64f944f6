/-
HostTrust.Proofs.Validity — which certificates must be valid at the moment of
a verdict, and which need not be.

Whether a certificate chains to a pool is asked whatever the time
(`Certificate.ChainsTo`); the checks that ask must look at the time. Those of
attestation keys and asset tags do. The check of signatures does not: of the signer
it knows only what the library says of its chain and of signatures, and with any
other signer of whom the library says the same, whatever its window, the standard
builders give the same reports (`verifyAllOfAt_withSigner`). So a verdict of trust
rests on valid certificates alone exactly if the signer happens to be within its
window (`certificatesValid_iff_of_trusted`).
-/
import HostTrust.Proofs.SignedVerdict

namespace HostTrust

open Outcome

/-- The attestation key certificate of the host is valid. -/
def HostManifest.AikValidAt (m : HostManifest) (time : Int) : Prop :=
  ∃ text c, m.aikText? = some text ∧
    Certificate.decode text CertificateUse.aik.role = .ok c ∧ c.validityAt time = .ok .valid

/-- The tag certificate of the flavor is valid. -/
def Flavor.TagValidAt (f : Flavor) (time : Int) : Prop :=
  ∃ text c, f.tagCertificate? = some text ∧
    Certificate.decode text CertificateUse.assetTag.role = .ok c ∧ c.validityAt time = .ok .valid

section

variable [CertificateLibrary]

/-- A certificate that was read and is trusted at a moment is valid then. -/
theorem Certificate.TrustedAt.validityAt {c : Certificate} {authorities : CertificatePool}
    {time : Int} {text role : String} (h : c.TrustedAt authorities time)
    (decoded : decode text role = .ok c) : c.validityAt time = .ok .valid :=
  validityAt_eq_valid_iff.mpr ⟨h.names decoded, h.begun, h.lasting⟩

theorem HostManifest.PresentsAik.aikValidAt {m : HostManifest} {authorities : CertificatePool}
    {time : Int} (h : m.PresentsAik authorities time) : m.AikValidAt time := by
  obtain ⟨text, c, presented, decoded, trusted⟩ := h
  exact ⟨text, c, presented, decoded, trusted.validityAt decoded⟩

/-- The tag certificate of the flavor is trusted and valid, and the host holds its digest in the
asset tag register of the bank. -/
def HostManifest.HoldsTag (m : HostManifest) (f : Flavor) (bank : Bank)
    (authorities : CertificatePool) (time : Int) : Prop :=
  ∃ text c, f.tagCertificate? = some text ∧
    Certificate.decode text CertificateUse.assetTag.role = .ok c ∧
    c.TrustedAt authorities time ∧ m.Holds (.ofAssetTag bank c.encoded)

theorem HostManifest.HoldsTag.tagValidAt {m : HostManifest} {f : Flavor} {bank : Bank}
    {authorities : CertificatePool} {time : Int} (h : m.HoldsTag f bank authorities time) :
    f.TagValidAt time := by
  obtain ⟨text, c, given, decoded, trusted, -⟩ := h
  exact ⟨text, c, given, decoded, trusted.validityAt decoded⟩

end

/-! ## The standard builders -/

/-- There are three standard builders. -/
theorem BuilderRegistry.standard_cases [CertificateLibrary] {vendor : Vendor} {tpm : TpmVersion}
    {b : RuleBuilder} (h : standard.builder? vendor tpm = some b) :
    (vendor = .intel ∧ b = .intel) ∨ (vendor = .vmware ∧ ∃ layout, b = .vmware layout) := by
  cases vendor <;> cases tpm <;> cases h
  · exact .inl ⟨rfl, rfl⟩
  · exact .inr ⟨rfl, _, rfl⟩
  · exact .inr ⟨rfl, _, rfl⟩

namespace RuleBuilder

variable [CertificateLibrary]

/-- The checks of an asset tag are passed exactly if the host holds the tag of the flavor. -/
theorem passes_assetTagChecks_iff {c : RuleContext} {bank : Bank} {cs : List Check}
    {m : HostManifest} (h : assetTagChecks c bank = .ok cs) :
    (∀ k ∈ cs, k.Passes m) ↔ m.HoldsTag c.flavor bank c.anchors.assetTagCa c.time := by
  unfold assetTagChecks at h
  unfold HostManifest.HoldsTag
  cases given : c.flavor.tagCertificate? with
  | none =>
    obtain rfl : [Check.tagCertificate none c.anchors.assetTagCa c.time] = cs := by
      simpa [given] using h
    simp [Check.passes_tagCertificate_iff]
  | some text =>
    obtain ⟨cert, decoded, rfl⟩ : ∃ cert,
        Certificate.decode text CertificateUse.assetTag.role = .ok cert ∧
          [Check.tagCertificate (some cert) c.anchors.assetTagCa c.time,
            Check.ofAssetTag bank cert.encoded] = cs := by
      simpa [given] using h
    have held : (Check.ofAssetTag bank cert.encoded).Passes m ↔
        m.Holds (.ofAssetTag bank cert.encoded) := Check.passes_pcrValue_iff
    have named : CalendarTime.Names c.time ∧ cert.TrustedAt c.anchors.assetTagCa c.time ↔
        cert.TrustedAt c.anchors.assetTagCa c.time :=
      and_iff_right_of_imp fun trusted => trusted.names decoded
    simp [Check.passes_tagCertificate_iff, held, decoded, named]

/-- Every standard builder asks for a valid tag certificate. -/
theorem tagValidAt_of_passes {c : RuleContext} {vendor : Vendor} {tpm : TpmVersion}
    {b : RuleBuilder} {rules : List Rule} {m : HostManifest}
    (registered : BuilderRegistry.standard.builder? vendor tpm = some b)
    (h : b.rules c .assetTag = .ok rules) (pass : ∀ r ∈ rules, r.Passes m) :
    c.flavor.TagValidAt c.time := by
  rcases BuilderRegistry.standard_cases registered with ⟨-, rfl⟩ | ⟨-, layout, rfl⟩
  · obtain ⟨cs, hcs, same⟩ := passes_ofChecks_iff (m := m) h
    exact ((passes_assetTagChecks_iff hcs).mp (same.mp pass)).tagValidAt
  · obtain ⟨cs, hcs, same⟩ := passes_ofChecks_iff (m := m) h
    exact ((passes_assetTagChecks_iff hcs).mp (same.mp pass)).tagValidAt

end RuleBuilder

/-! ## Other signers -/

section

variable [CertificateLibrary]

/-- The library says of one certificate what it says of the other: whether it chains to one of the
pool's, and which signatures are its. -/
structure Certificate.AnsweredAs (c d : Certificate) (authorities : CertificatePool) : Prop where
  chains : CertificateLibrary.chainsTo authorities.certificates c =
    CertificateLibrary.chainsTo authorities.certificates d
  signatures : ∀ data signature,
    CertificateLibrary.verifies c data signature = CertificateLibrary.verifies d data signature

theorem FlavorSignature.faultsOf_congr {s t : FlavorSignature} {c d : Certificate}
    (content : s.content = t.content) (signature : s.signature = t.signature)
    (authorities : s.authorities = t.authorities) (alike : c.AnsweredAs d t.authorities) :
    s.faultsOf c = t.faultsOf d := by
  have signed : s.isBy c = t.isBy d := by
    unfold isBy Certificate.verifySignature
    simp only [content, signature, alike.signatures]
  have trust : t.authorities.isTrusted c = t.authorities.isTrusted d := by
    rw [CertificatePool.isTrusted, CertificatePool.isTrusted, alike.chains]
  rw [faultsOf, faultsOf, authorities, trust, signed]

end

/-- The verifier with another signer. -/
def TrustVerifier.withSigner (v : TrustVerifier) (signer : Certificate) : TrustVerifier :=
  { v with anchors := { v.anchors with flavorSigning := some signer } }

namespace TrustVerifier

variable [CertificateLibrary] {v : TrustVerifier} {m : HostManifest} {time : Int}
  {signer other : Certificate}

theorem signatureFaults_withSigner {f : SignedFlavor}
    (configured : v.anchors.flavorSigning = some signer)
    (alike : other.AnsweredAs signer v.anchors.flavorCa) :
    (FlavorSignature.ofFlavor f (some other) v.anchors.flavorCa).faults =
      (FlavorSignature.ofFlavor f v.anchors.flavorSigning v.anchors.flavorCa).faults := by
  rw [configured, FlavorSignature.faults, FlavorSignature.faults]
  exact if_congr Iff.rfl rfl (FlavorSignature.faultsOf_congr rfl rfl rfl alike)

/-- The rule about the signature judges alike, and the builders do not look at the signer. -/
theorem rulesFor_withSigner {f : SignedFlavor} (registry : v.registry = .standard)
    (configured : v.anchors.flavorSigning = some signer)
    (alike : other.AnsweredAs signer v.anchors.flavorCa) :
    (v.withSigner other).rulesFor m time f = v.rulesFor m time f := by
  have signature : ∀ part,
      (RuleContext.signatureCheck ⟨f, m, (v.withSigner other).anchors, time⟩).rule [part] =
      (RuleContext.signatureCheck ⟨f, m, v.anchors, time⟩).rule [part] := by
    intro part
    refine congrArg (Rule.mk "FlavorTrusted" [part]) (funext fun host => ?_)
    exact congrArg (fun faults => _ <$> Findings.ofFaults <$> faults)
      (signatureFaults_withSigner configured alike)
  have static : ∀ vendor tpm b part, BuilderRegistry.standard.builder? vendor tpm = some b →
      b.rules ⟨f, m, (v.withSigner other).anchors, time⟩ part =
        b.rules ⟨f, m, v.anchors, time⟩ part := by
    intro vendor tpm b part registered
    rcases BuilderRegistry.standard_cases registered with ⟨-, rfl⟩ | ⟨-, layout, rfl⟩ <;>
      cases part <;> rfl
  unfold rulesFor
  show RuleContext.rules _ v.registry v.skipSignature = _
  rw [registry]
  unfold RuleContext.rules
  refine bind_congr fun part => bind_congr fun vendor => bind_congr fun tpm => ?_
  cases registered : BuilderRegistry.standard.builder? vendor tpm with
  | none => simp [BuilderRegistry.builder, registered]; rfl
  | some b =>
    simp only [BuilderRegistry.builder, registered, pure_bind, signature,
      static vendor tpm b part registered]
    rfl

/-- Of the signer, a report of the standard builders depends on the library's answers alone. -/
theorem verifyAllOfAt_withSigner {flavors : List SignedFlavor} (registry : v.registry = .standard)
    (configured : v.anchors.flavorSigning = some signer)
    (alike : other.AnsweredAs signer v.anchors.flavorCa) :
    (v.withSigner other).verifyAllOfAt m flavors time = v.verifyAllOfAt m flavors time := by
  have same : (v.withSigner other).results m time = v.results m time := by
    funext f
    have rules : (v.withSigner other).rulesFor m time f = v.rulesFor m time f :=
      rulesFor_withSigner registry configured alike
    unfold rulesFor at rules
    rw [results, results, rules]
  rw [verifyAllOfAt, verifyAllOfAt, same]

/-! ## Valid certificates -/

/-- The flavor is for the platform of an Intel host. -/
def IsIntelPlatform (v : TrustVerifier) (m : HostManifest) (time : Int) (f : SignedFlavor) :
    Prop :=
  f.flavor.part = .ok .platform ∧ RuleContext.vendor ⟨f, m, v.anchors, time⟩ = .ok .intel

/-- The certificates that a verdict rests on are all valid. -/
structure CertificatesValid (v : TrustVerifier) (m : HostManifest) (flavors : List SignedFlavor)
    (time : Int) : Prop where
  signer : ∃ c, v.anchors.flavorSigning = some c ∧ c.validityAt time = .ok .valid
  aik : (∃ f ∈ flavors, v.IsIntelPlatform m time f) → m.AikValidAt time
  tags : ∀ f ∈ flavors, f.flavor.part = .ok .assetTag → f.flavor.TagValidAt time

theorem aikValidAt_of_faultless {f : SignedFlavor} {rs : List RuleResult}
    (registry : v.registry = .standard) (intel : v.IsIntelPlatform m time f)
    (h : v.results m time f = .ok rs) (clean : ∀ x ∈ rs, x.faults = []) :
    m.AikValidAt time := by
  obtain ⟨part, vendor, tpm, builder, static, derived, hpart, hvendor, -, hbuilder, hstatic, -,
    verdict⟩ := faultless_iff_of_results h
  obtain rfl : FlavorPart.platform = part := by simpa [intel.1] using hpart
  obtain rfl : Vendor.intel = vendor := by simpa [intel.2] using hvendor
  have pass := (verdict.mp clean).1
  rw [registry] at hbuilder
  rcases BuilderRegistry.standard_cases hbuilder with ⟨-, rfl⟩ | ⟨other, -⟩
  · exact ((RuleBuilder.passes_intel_iff (.inl rfl) hstatic).mp pass rfl).aikValidAt
  · cases other

theorem tagValidAt_of_faultless {f : SignedFlavor} {rs : List RuleResult}
    (registry : v.registry = .standard) (tag : f.flavor.part = .ok .assetTag)
    (h : v.results m time f = .ok rs) (clean : ∀ x ∈ rs, x.faults = []) :
    f.flavor.TagValidAt time := by
  obtain ⟨part, vendor, tpm, builder, static, derived, hpart, -, -, hbuilder, hstatic, -,
    verdict⟩ := faultless_iff_of_results h
  obtain rfl : FlavorPart.assetTag = part := by simpa [tag] using hpart
  rw [registry] at hbuilder
  exact RuleBuilder.tagValidAt_of_passes hbuilder hstatic (verdict.mp clean).1

/-- A verdict of trust rests on valid certificates of hosts and tags, and on a valid signer
only by chance: the same report is given for any other signer of whom the library says the same,
whatever the window of that one is. -/
theorem certificatesValid_iff_of_trusted {flavors : List SignedFlavor} {report : TrustReport}
    (registry : v.registry = .standard) (on : v.skipSignature = false)
    (least : CalendarTime.leastUnix ≤ time) (greatest : time ≤ CalendarTime.greatestUnix)
    (ok : v.verifyAllOfAt m flavors time = .ok report) (trusted : report.trusted = true) :
    ((∃ f ∈ flavors, v.IsIntelPlatform m time f) → m.AikValidAt time) ∧
      (∀ f ∈ flavors, f.flavor.part = .ok .assetTag → f.flavor.TagValidAt time) ∧
      ∃ signer, v.anchors.flavorSigning = some signer ∧
        (∀ other, other.AnsweredAs signer v.anchors.flavorCa →
          (v.withSigner other).verifyAllOfAt m flavors time = .ok report) ∧
        (v.CertificatesValid m flavors time ↔
          signer.notBefore.toUnix ≤ time ∧ time ≤ signer.notAfter.toUnix) := by
  have aik : (∃ f ∈ flavors, v.IsIntelPlatform m time f) → m.AikValidAt time := by
    rintro ⟨f, hf, intel⟩
    obtain ⟨rs, hrs, clean⟩ := exists_faultless_of_trusted ok trusted hf
    exact aikValidAt_of_faultless registry intel hrs clean
  have tags : ∀ f ∈ flavors, f.flavor.part = .ok .assetTag → f.flavor.TagValidAt time := by
    intro f hf tag
    obtain ⟨rs, hrs, clean⟩ := exists_faultless_of_trusted ok trusted hf
    exact tagValidAt_of_faultless registry tag hrs clean
  have signer : ∃ signer, v.anchors.flavorSigning = some signer := by
    obtain ⟨f, hf⟩ := List.exists_mem_of_ne_nil _ (verifyAllOfAt_eq_ok_iff.mp ok).1
    obtain ⟨rs, hrs, clean⟩ := exists_faultless_of_trusted ok trusted hf
    obtain ⟨-, signer, -, configured, -⟩ := signed_of_faultless on hrs clean
    exact ⟨signer, configured⟩
  obtain ⟨signer, configured⟩ := signer
  have inTime : signer.validityAt time = .ok .valid ↔
      signer.notBefore.toUnix ≤ time ∧ time ≤ signer.notAfter.toUnix :=
    Certificate.validityAt_eq_valid_iff.trans (and_iff_right ⟨least, greatest⟩)
  refine ⟨aik, tags, signer, configured, fun other alike => ?_, ?_⟩
  · rw [verifyAllOfAt_withSigner registry configured alike, ok]
  · rw [← inTime]
    constructor
    · rintro ⟨⟨c, hc, valid⟩, -, -⟩
      obtain rfl : signer = c := by simpa [configured] using hc
      exact valid
    · intro valid
      exact ⟨⟨signer, configured, valid⟩, aik, tags⟩

end TrustVerifier

namespace Sample

open TrustVerifier

set_option maxRecDepth 4000 in
/-- The moment is within the window of the signer. -/
theorem signer_window : ∃ c, signer? = some c ∧
    c.notBefore.toUnix ≤ moment ∧ moment ≤ c.notAfter.toUnix := by
  have found : signer?.map (fun c => decide (c.notBefore.toUnix ≤ moment ∧
      moment ≤ c.notAfter.toUnix)) = some true := by decide
  simpa using found

theorem certificatesValid_platform : verifier.skipSignature = false ∧
    (∃ report, verifier.verifyAllOfAt manifest [platform] moment = .ok report ∧
      report.trusted = true) ∧
    verifier.CertificatesValid manifest [platform] moment := by
  obtain ⟨report, ok, trusted⟩ := verifyAllOfAt_platform
  obtain ⟨-, -, signer, configured, -, valid⟩ := certificatesValid_iff_of_trusted
    (v := verifier) rfl rfl (by decide) (by decide) ok trusted
  obtain ⟨c, hc, window⟩ := signer_window
  obtain rfl : signer = c := by
    have : some signer = some c := configured.symm.trans hc
    simpa using this
  exact ⟨rfl, ⟨report, ok, trusted⟩, valid.mpr window⟩

/-- The second after the signer expires. -/
def expiry : Int := 1893456001

/-- A host that is trusted although the signer of the flavor has expired. -/
theorem trusted_after_expiry : verifier.registry = .standard ∧ verifier.skipSignature = false ∧
    CalendarTime.leastUnix ≤ expiry ∧ expiry ≤ CalendarTime.greatestUnix ∧
    ∃ report, verifier.verifyAllOfAt manifest [os] expiry = .ok report ∧
      report.trusted = true ∧ ¬ verifier.CertificatesValid manifest [os] expiry := by
  obtain ⟨rs, hrs, any, clean⟩ :
      ∃ rs, verifier.results manifest expiry os = .ok rs ∧ rs ≠ [] ∧
        ∀ x ∈ rs, x.faults = [] := exists_of_faultless (by decide +kernel)
  have described : os.flavor.part = .ok .os := by decide +kernel
  obtain ⟨report, ok, trusted⟩ := trusted_verifyAllOfAt_singleton described hrs any clean
  refine ⟨rfl, rfl, by decide, by decide, report, ok, trusted, ?_⟩
  rintro ⟨⟨c, hc, valid⟩, -, -⟩
  have expired : signer?.map (fun c => c.validityAt expiry) = some (.ok .expired) := by
    decide +kernel
  have : signer? = some c := hc
  simp [this, valid] at expired

end Sample

end HostTrust
