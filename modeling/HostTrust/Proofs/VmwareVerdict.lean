/-
HostTrust.Proofs.VmwareVerdict — what a trusted VMware host is.

The results of a flavor for VMware hosts are those of the rules of the layout,
and the one about the signature (`results_of_vmware`). So the verdict of
`verifyFlavorAt` is told by `PcrLayout.MetBy` alone, and policies for registers
that the layout does not look at change nothing but the signed bytes
(`trusted_iff_of_vmware`). Besides registers and logs, a flavor for an asset tag
asks for the tag: `trusted_needs_tag` has one whose signature is left out and
whose host is not trusted all the same.
-/
import HostTrust.Proofs.Agreement
import HostTrust.Proofs.FixedLayout

namespace HostTrust

open Outcome

namespace TrustVerifier

variable [CertificateLibrary] {v : TrustVerifier} {m : HostManifest} {f : SignedFlavor}
  {time : Int} {tpm : TpmVersion} {part : FlavorPart}

/-- The result about the signature, unless signatures are left out. -/
def signatureResults (v : TrustVerifier) (f : SignedFlavor) (part : FlavorPart) :
    Except VerificationError (List RuleResult) := do
  if v.skipSignature then return [] else return [← v.signatureResult f part]

/-- The results of the rules of a layout. -/
def layoutResults (v : TrustVerifier) (m : HostManifest) (time : Int) (f : SignedFlavor)
    (l : RuleBuilder.PcrLayout) (part : FlavorPart) :
    Except VerificationError (List RuleResult) := do
  let rules ← (RuleBuilder.vmware l).rules ⟨f, m, v.anchors, time⟩ part
  rules.mapM fun r => (·.withFlavorId f.flavor.id?) <$> r.judge m

theorem mapM_judge_signatureRules :
    ((RuleContext.signatureRules ⟨f, m, v.anchors, time⟩ v.skipSignature part).mapM fun r =>
      (·.withFlavorId f.flavor.id?) <$> r.judge m) = v.signatureResults f part := by
  unfold RuleContext.signatureRules signatureResults
  cases v.skipSignature with
  | true => rfl
  | false => simp [judge_signatureCheck]

/-- The signature is judged apart from the layout. -/
theorem results_of_vmware (registry : v.registry = .standard)
    (vendor : RuleContext.vendor ⟨f, m, v.anchors, time⟩ = .ok .vmware)
    (version : RuleContext.tpmVersion ⟨f, m, v.anchors, time⟩ = .ok tpm)
    (described : f.flavor.part = .ok part) :
    v.results m time f = do
      return (← v.layoutResults m time f (.ofVersion tpm) part) ++
        (← v.signatureResults f part) := by
  rw [results, registry, RuleContext.rules_of_vmware vendor version described, layoutResults]
  cases (RuleBuilder.vmware (.ofVersion tpm)).rules ⟨f, m, v.anchors, time⟩ part with
  | error e => rfl
  | ok static =>
    show List.mapM _ (static ++ _) = (static.mapM _ >>= fun rs => _)
    rw [List.mapM_append, mapM_judge_signatureRules]

/-- They are free of faults exactly if the host meets the flavor and the flavor is signed. -/
theorem faultless_iff_of_vmware {rs : List RuleResult} (registry : v.registry = .standard)
    (vendor : RuleContext.vendor ⟨f, m, v.anchors, time⟩ = .ok .vmware)
    (version : RuleContext.tpmVersion ⟨f, m, v.anchors, time⟩ = .ok tpm)
    (described : f.flavor.part = .ok part) (h : v.results m time f = .ok rs) :
    (∀ x ∈ rs, x.faults = []) ↔
      (RuleBuilder.PcrLayout.ofVersion tpm).MetBy ⟨f, m, v.anchors, time⟩ part m ∧
      (v.skipSignature = false → f.SignedUnder v.anchors) := by
  obtain ⟨rules, hrules, -⟩ := results_eq_ok_iff.mp h
  rw [faultless_iff_passes hrules h]
  rw [rulesFor, registry, RuleContext.rules_of_vmware vendor version described,
    map_eq_ok_iff] at hrules
  obtain ⟨static, hstatic, rfl⟩ := hrules
  simp only [List.mem_append, or_imp, forall_and, RuleBuilder.passes_vmware_iff hstatic,
    RuleContext.passes_signatureRules_iff]

/-- Flavors for software fail, since no layout has rules for them. -/
theorem verifyFlavorAt_software (registry : v.registry = .standard)
    (vendor : RuleContext.vendor ⟨f, m, v.anchors, time⟩ = .ok .vmware)
    (version : RuleContext.tpmVersion ⟨f, m, v.anchors, time⟩ = .ok tpm)
    (described : f.flavor.part = .ok .software) :
    v.verifyFlavorAt m f time =
      .error (.unsupportedSoftware (RuleBuilder.PcrLayout.ofVersion tpm).name) := by
  rw [verifyFlavorAt, results_of_vmware registry vendor version described]
  rfl

/-- Policies for other registers do not enter the results of the layout. -/
theorem layoutResults_congr {l : RuleBuilder.PcrLayout} {pcrs : List PcrPolicy}
    (same : pcrs.filter (l.consults part) = f.flavor.pcrs.filter (l.consults part))
    (signature : String) :
    v.layoutResults m time (f.withPolicies pcrs signature) l part =
      v.layoutResults m time f l part := by
  rw [layoutResults, RuleBuilder.rules_vmware_congr same signature]
  rfl

/-- The verdict against a flavor for VMware hosts is the layout's: for the report that there is,
for the part without rules, and for any other policies besides those that are looked at. -/
theorem trusted_iff_of_vmware (registry : v.registry = .standard)
    (vendor : RuleContext.vendor ⟨f, m, v.anchors, time⟩ = .ok .vmware)
    (version : RuleContext.tpmVersion ⟨f, m, v.anchors, time⟩ = .ok tpm)
    (described : f.flavor.part = .ok part) :
    (∀ report, v.verifyFlavorAt m f time = .ok report →
      (report.trusted = true ↔ report.results ≠ [] ∧
        (RuleBuilder.PcrLayout.ofVersion tpm).MetBy ⟨f, m, v.anchors, time⟩ part m ∧
        (v.skipSignature = false → f.SignedUnder v.anchors))) ∧
    (part = .software → ∃ e, v.verifyFlavorAt m f time = .error e ∧ e.kind = .flavorPart ∧
      e = .unsupportedSoftware (RuleBuilder.PcrLayout.ofVersion tpm).name) ∧
    ∀ pcrs signature,
      pcrs.filter ((RuleBuilder.PcrLayout.ofVersion tpm).consults part) =
        f.flavor.pcrs.filter ((RuleBuilder.PcrLayout.ofVersion tpm).consults part) →
      ∃ evaluated : Except VerificationError (List RuleResult),
        (v.results m time f = do return (← evaluated) ++ (← v.signatureResults f part)) ∧
        v.results m time (f.withPolicies pcrs signature) = do
          return (← evaluated) ++ (← v.signatureResults (f.withPolicies pcrs signature) part) := by
  refine ⟨?_, ?_, ?_⟩
  · intro report ok
    have evaluated := results_of_verifyFlavorAt ok
    rw [trusted_of_verifyFlavorAt ok,
      faultless_iff_of_vmware registry vendor version described evaluated]
  · rintro rfl
    exact ⟨_, verifyFlavorAt_software registry vendor version described, rfl, rfl⟩
  · intro pcrs signature same
    -- Neither vendor, version nor part is told by the policies.
    have other : v.results m time (f.withPolicies pcrs signature) = do
        return (← v.layoutResults m time (f.withPolicies pcrs signature) (.ofVersion tpm) part) ++
          (← v.signatureResults (f.withPolicies pcrs signature) part) :=
      results_of_vmware registry vendor version described
    rw [layoutResults_congr same signature] at other
    exact ⟨_, results_of_vmware registry vendor version described, other⟩

end TrustVerifier

/-! ## A host of modules -/

namespace Sample

open TrustVerifier

/-- A flavor for a part of VMware hosts, with policies. -/
def esxi (part : FlavorPart) (pcrs : List PcrPolicy) : SignedFlavor :=
  ⟨{ flavor part pcrs with
    metadata := some ⟨flavorId, some "VMWARE",
      { FlavorDescription.blank with
        flavorPart := some part.name, tpmVersion := some "2.0" }⟩ }, ""⟩

def firmwareRegister : Pcr := ⟨RuleBuilder.PcrLayout.tpm20.platform.head (by decide), .sha256⟩

def kernelRegister : Pcr := ⟨RuleBuilder.PcrLayout.tpm20.os.head (by decide), .sha256⟩

def moduleRegister : Pcr := ⟨RuleBuilder.PcrLayout.tpm20.moduleLog, .sha256⟩

/-- A policy for the value of a register, which does not say that it is for the value. -/
def valuePolicy (pcr : Pcr) (value : String) : PcrPolicy := ⟨pcr, value, false, none, none⟩

/-- A policy for the log of modules, which counts no events with the tag. -/
def modulePolicy (events : List Event) (tag : String) : PcrPolicy :=
  ⟨moduleRegister, "", true, some ⟨events, .ofList [tag]⟩, none⟩

/-- The policies that are looked at: one for a value, one for the log of modules. -/
def esxiPolicies : List PcrPolicy :=
  [valuePolicy kernelRegister " AB ",
    modulePolicy [event "01", { event "02" with tags := .ofList ["site"] }] "site"]

/-- The same with policies that are not: one is for another register, and one for another bank. -/
def crowdedPolicies : List PcrPolicy :=
  valuePolicy firmwareRegister "cd" :: esxiPolicies ++
    [valuePolicy { kernelRegister with bank := .sha1 } "ef"]

/-- A host with the value, and with the module of the policy and the options it was started
with. -/
def esxiHost : HostManifest :=
  { HostManifest.blank with
    pcrs := some ⟨[], [⟨kernelRegister, "ab"⟩], { BankMap.empty with
      sha256 := some [⟨moduleRegister,
        [{ event "03" with tags := .ofList ["commandLine."] }, event "01"]⟩] }⟩ }

theorem results_esxi : ∃ rs,
    lenient.results esxiHost moment (esxi .os crowdedPolicies) = .ok rs ∧ rs ≠ [] ∧
      ∀ x ∈ rs, x.faults = [] :=
  exists_of_faultless (by decide +kernel)

/-- The host is trusted against the policies, with and without those that are not looked at; there
are no flavors for its software. -/
theorem trusted_esxi : (∃ report,
      lenient.verifyFlavorAt esxiHost (esxi .os crowdedPolicies) moment = .ok report ∧
      report.trusted = true ∧ RuleBuilder.PcrLayout.tpm20.MetBy
        ⟨esxi .os crowdedPolicies, esxiHost, anchors, moment⟩ .os esxiHost) ∧
    lenient.results esxiHost moment (esxi .os esxiPolicies) =
      lenient.results esxiHost moment (esxi .os crowdedPolicies) ∧
    ∃ e, lenient.verifyFlavorAt esxiHost (esxi .software []) moment = .error e ∧
      e.kind = .flavorPart := by
  obtain ⟨verdict, -, others⟩ := @trusted_iff_of_vmware _ lenient esxiHost
    (esxi .os crowdedPolicies) moment .v20 .os rfl (by decide +kernel) (by decide +kernel)
    (by decide +kernel)
  obtain ⟨rs, hrs, any, clean⟩ := results_esxi
  have ok := verifyFlavorAt_eq_ok_iff.mpr ⟨rs, hrs, rfl⟩
  have trusted := TrustReport.trusted_addResults_empty.mpr ⟨any, clean⟩
  obtain ⟨evaluated, crowded, alone⟩ := others esxiPolicies "" (by decide +kernel)
  have unsigned : ∀ f, lenient.signatureResults f .os = .ok [] := fun _ => rfl
  rw [unsigned] at crowded alone
  obtain ⟨-, software, -⟩ := @trusted_iff_of_vmware _ lenient esxiHost (esxi .software []) moment
    .v20 .software rfl (by decide +kernel) (by decide +kernel) (by decide +kernel)
  obtain ⟨e, failed, kind, -⟩ := software rfl
  exact ⟨⟨_, ok, trusted, ((verdict _ ok).mp trusted).2.1⟩, alone.trans crowded.symm, e, failed,
    kind⟩

/-- A host without the asset tag is not trusted, though no register is looked at and the signature
is left out. -/
theorem trusted_needs_tag :
    RuleContext.vendor ⟨esxi .assetTag [], .blank, anchors, moment⟩ = .ok .vmware ∧
    RuleContext.tpmVersion ⟨esxi .assetTag [], .blank, anchors, moment⟩ = .ok .v20 ∧
    (esxi .assetTag []).flavor.part = .ok .assetTag ∧ lenient.skipSignature = true ∧
    ∃ report, lenient.verifyFlavorAt .blank (esxi .assetTag []) moment = .ok report ∧
      report.results ≠ [] ∧ report.trusted = false := by
  refine ⟨by decide +kernel, by decide +kernel, by decide +kernel, rfl, ?_⟩
  obtain ⟨report, ok, told⟩ := exists_ok_of_map_eq_some
    (x := lenient.verifyFlavorAt .blank (esxi .assetTag []) moment)
    (p := fun report => !report.results.isEmpty && !report.trusted) (by decide +kernel)
  exact ⟨report, ok, by simpa using told⟩

end Sample

end HostTrust
