/-
HostTrust.Proofs.PolicyConflicts — policies that give events both ways.

Such a policy is an error to whoever looks at it: to the checks of the policies,
which look at all of them in order (`checks_of_conflicting`), and to the log of
modules, which looks at one. Layouts of registers do not look at the others, and
not at all at the events of those whose value they check. So a flavor can carry
such a policy and be evaluated, if it is for VMware hosts and the layout has
rules for it (`exists_rules_iff_of_conflicting`); `evaluated_with_conflict` has
one.
-/
import HostTrust.Proofs.VmwareVerdict

namespace HostTrust

open Outcome

namespace PcrPolicy

/-- The policies are unusable because of the first that is in conflict with itself. -/
theorem checksAfter_of_conflicting {checked : List Pcr} {policies : List PcrPolicy} {q : PcrPolicy}
    (first : policies.find? (·.Conflicting) = some q) :
    checksAfter checked policies = .error (.conflictingPolicy q.pcr) := by
  induction policies generalizing checked with
  | nil => cases first
  | cons p rest ih =>
    unfold checksAfter
    by_cases here : p.Conflicting
    · obtain rfl : p = q := by simpa [here] using first
      rw [validate_of_conflicting here]
      rfl
    · have later : rest.find? (·.Conflicting) = some q := by simpa [here] using first
      exact bind_eq_error_iff.mpr
        (.inr ⟨(), validate_eq_ok_iff.mpr here, bind_eq_error_iff.mpr (.inl (ih later))⟩)

theorem checks_of_conflicting {policies : List PcrPolicy} {q : PcrPolicy}
    (first : policies.find? (·.Conflicting) = some q) :
    checks policies = .error (.conflictingPolicy q.pcr) :=
  checksAfter_of_conflicting first

theorem exists_first_conflicting {policies : List PcrPolicy} {p : PcrPolicy} (hp : p ∈ policies)
    (conflicting : p.Conflicting) : ∃ q, policies.find? (·.Conflicting) = some q :=
  Option.isSome_iff_exists.mp (List.find?_isSome.mpr ⟨p, hp, by simpa using conflicting⟩)

end PcrPolicy

namespace RuleBuilder

variable [CertificateLibrary] {c : RuleContext} {l : PcrLayout} {part : FlavorPart}

/-- Where the log of modules is looked at, its first policy must not be in conflict with itself. -/
theorem rules_vmware_of_conflicting {q : PcrPolicy} (modules : part = .os ∨ part = .hostUnique)
    (first : l.policy? c.flavor l.moduleLog = some q) (conflicting : q.Conflicting) :
    (vmware l).rules c part = .error (.conflictingPolicy q.pcr) := by
  have log : ∀ check, l.moduleLogChecks c.flavor check = .error (.conflictingPolicy q.pcr) := by
    intro check
    rw [PcrLayout.moduleLogChecks, first]
    show (q.validate >>= _) = _
    rw [PcrPolicy.validate_of_conflicting conflicting]
    rfl
  rcases modules with rfl | rfl
  · simp only [vmware, ofChecks, log]
    rfl
  · simp only [vmware, ofChecks, log]
    rfl

/-- Registers and their logs can be checked on any host. -/
theorem exists_judge_of_mem_vmware {m : HostManifest} {rules : List Rule}
    (registers : part ≠ .assetTag) (h : (vmware l).rules c part = .ok rules) {r : Rule}
    (hr : r ∈ rules) : ∃ x, r.judge m = .ok x := by
  obtain ⟨cs, rfl, -, about | ⟨tags, -⟩⟩ := exists_checks_of_vmware h
  · obtain ⟨k, hk, rfl⟩ := List.mem_map.mp hr
    cases about k hk <;> exact ⟨_, rfl⟩
  · exact absurd tags registers

end RuleBuilder

namespace RuleContext

variable [CertificateLibrary] {c : RuleContext} {part : FlavorPart} {q : PcrPolicy}

/-- The flavor is for VMware hosts, and the rules of their layout for its part can be built. -/
def LayoutAllows (c : RuleContext) : Prop :=
  ∃ tpm part, c.vendor = .ok .vmware ∧ c.tpmVersion = .ok tpm ∧ c.flavor.part = .ok part ∧
    (RuleBuilder.PcrLayout.ofVersion tpm).Allows c part

/-- Layouts ask less of policies than the checks of policies do. -/
theorem layoutAllows_of_rules {skip : Bool} {rules : List Rule}
    (first : c.flavor.pcrs.find? (·.Conflicting) = some q)
    (h : c.rules .standard skip = .ok rules) : c.LayoutAllows := by
  obtain ⟨part, vendor, tpm, builder, static, derived, described, hvendor, version, registered,
    hstatic, hderived, -⟩ := rules_eq_ok_iff.mp h
  rcases BuilderRegistry.standard_cases registered with ⟨-, rfl⟩ | ⟨rfl, -⟩
  · -- All policies of the flavor would be checks.
    have checked : ∃ cs, PcrPolicy.checks c.flavor.pcrs = .ok cs := by
      obtain ⟨cs, hcs, -⟩ := bind_eq_ok_iff.mp hderived
      exact ⟨cs, hcs⟩
    simp [PcrPolicy.checks_of_conflicting first] at checked
  · obtain rfl : RuleBuilder.vmware (.ofVersion tpm) = builder := by
      rw [RuleBuilder.standard_vmware] at registered
      exact Option.some.inj registered
    exact ⟨tpm, part, hvendor, version, described,
      RuleBuilder.exists_rules_vmware_iff.mp ⟨static, hstatic⟩⟩

theorem rules_of_intel_conflicting (vendor : c.vendor = .ok .intel)
    (version : c.tpmVersion = .ok .v20) (described : c.flavor.part = .ok part) (skip : Bool)
    (first : c.flavor.pcrs.find? (·.Conflicting) = some q) {static : List Rule}
    (own : RuleBuilder.intel.rules c part = .ok static) :
    c.rules .standard skip = .error (.conflictingPolicy q.pcr) := by
  have steps : c.rules .standard skip = do
      let static ← RuleBuilder.intel.rules c part
      let derived ← PcrPolicy.rules c.flavor.pcrs part
      return static ++ derived ++ c.signatureRules skip part := by
    rw [RuleContext.rules, described, vendor, version]
    rfl
  rw [steps, own, PcrPolicy.rules, PcrPolicy.checks_of_conflicting first]
  rfl

end RuleContext

namespace TrustVerifier

variable [CertificateLibrary] {v : TrustVerifier} {m : HostManifest} {f : SignedFlavor}
  {time : Int}

/-- The library answers what is asked about the signature, unless signatures are left out. -/
def JudgesSignature (v : TrustVerifier) (f : SignedFlavor) : Prop :=
  v.skipSignature = false →
    (FlavorSignature.ofFlavor f v.anchors.flavorSigning v.anchors.flavorCa).Answered

theorem exists_signatureResults_iff {part : FlavorPart} :
    (∃ rs, v.signatureResults f part = .ok rs) ↔ v.JudgesSignature f := by
  unfold JudgesSignature signatureResults
  cases v.skipSignature <;> simp [signatureResult, FlavorSignature.exists_faults_iff]

/-- Where the layout has rules for registers, there is a report if the signature can be judged. -/
theorem exists_report_iff_of_layoutAllows (registry : v.registry = .standard)
    (registers : f.flavor.part ≠ .ok .assetTag)
    (allowed : RuleContext.LayoutAllows ⟨f, m, v.anchors, time⟩) :
    (∃ report, v.verifyFlavorAt m f time = .ok report) ↔ v.JudgesSignature f := by
  obtain ⟨tpm, part, vendor, version, described, allows⟩ := allowed
  obtain ⟨static, hstatic⟩ := RuleBuilder.exists_rules_vmware_iff.mpr allows
  have other : part ≠ .assetTag := by
    rintro rfl
    exact registers described
  obtain ⟨rs, hrs⟩ : ∃ rs,
      v.layoutResults m time f (.ofVersion tpm) part = .ok rs := by
    rw [layoutResults, hstatic]
    refine exists_mapM_ok_iff.mpr fun r hr => ?_
    obtain ⟨x, hx⟩ := RuleBuilder.exists_judge_of_mem_vmware (m := m) other hstatic hr
    exact ⟨_, map_eq_ok_iff.mpr ⟨x, hx, rfl⟩⟩
  have signature : (∃ rs, v.signatureResults f part = .ok rs) ↔ v.JudgesSignature f :=
    exists_signatureResults_iff
  rw [← signature]
  simp [verifyFlavorAt_eq_ok_iff, results_of_vmware registry vendor version described, hrs]

/-- What becomes of a flavor with a policy that gives events both ways. It has rules only where a
layout has them, and is then evaluated if its signature can be judged. It is an error if all
policies are checks, and if the policy is the first for the log of modules and the log is looked
at. -/
theorem exists_rules_iff_of_conflicting (registry : v.registry = .standard) {p : PcrPolicy}
    (hp : p ∈ f.flavor.pcrs) (conflicting : p.Conflicting) :
    ((∃ rules, v.rulesFor m time f = .ok rules) ↔
      RuleContext.LayoutAllows ⟨f, m, v.anchors, time⟩) ∧
    (∀ report, v.verifyFlavorAt m f time = .ok report →
      RuleContext.LayoutAllows ⟨f, m, v.anchors, time⟩) ∧
    (f.flavor.part ≠ .ok .assetTag → RuleContext.LayoutAllows ⟨f, m, v.anchors, time⟩ →
      ((∃ report, v.verifyFlavorAt m f time = .ok report) ↔ v.JudgesSignature f)) ∧
    (∀ part static, RuleContext.vendor ⟨f, m, v.anchors, time⟩ = .ok .intel →
      RuleContext.tpmVersion ⟨f, m, v.anchors, time⟩ = .ok .v20 → f.flavor.part = .ok part →
      RuleBuilder.intel.rules ⟨f, m, v.anchors, time⟩ part = .ok static →
      ∃ q, f.flavor.pcrs.find? (·.Conflicting) = some q ∧
        v.rulesFor m time f = .error (.conflictingPolicy q.pcr)) ∧
    ∀ tpm part, RuleContext.vendor ⟨f, m, v.anchors, time⟩ = .ok .vmware →
      RuleContext.tpmVersion ⟨f, m, v.anchors, time⟩ = .ok tpm → f.flavor.part = .ok part →
      part = .os ∨ part = .hostUnique →
      (RuleBuilder.PcrLayout.ofVersion tpm).policy? f.flavor
        (RuleBuilder.PcrLayout.ofVersion tpm).moduleLog = some p →
      v.rulesFor m time f = .error (.conflictingPolicy p.pcr) := by
  obtain ⟨q, first⟩ := PcrPolicy.exists_first_conflicting hp conflicting
  have allowed : ∀ rules, v.rulesFor m time f = .ok rules →
      RuleContext.LayoutAllows ⟨f, m, v.anchors, time⟩ := by
    intro rules h
    rw [rulesFor, registry] at h
    exact RuleContext.layoutAllows_of_rules first h
  refine ⟨⟨?_, ?_⟩, ?_, ?_, ?_, ?_⟩
  · rintro ⟨rules, h⟩
    exact allowed rules h
  · rintro ⟨tpm, part, vendor, version, described, allows⟩
    obtain ⟨static, hstatic⟩ := RuleBuilder.exists_rules_vmware_iff.mpr allows
    rw [rulesFor, registry, RuleContext.rules_of_vmware vendor version described, hstatic]
    exact ⟨_, rfl⟩
  · intro report ok
    obtain ⟨rs, hrs, -⟩ := verifyFlavorAt_eq_ok_iff.mp ok
    obtain ⟨rules, hrules, -⟩ := results_eq_ok_iff.mp hrs
    exact allowed rules hrules
  · exact exists_report_iff_of_layoutAllows registry
  · intro part static vendor version described own
    refine ⟨q, first, ?_⟩
    rw [rulesFor, registry,
      RuleContext.rules_of_intel_conflicting vendor version described _ first own]
  · intro tpm part vendor version described modules looked
    rw [rulesFor, registry, RuleContext.rules_of_vmware vendor version described,
      RuleBuilder.rules_vmware_of_conflicting modules looked conflicting]
    rfl

end TrustVerifier

namespace Sample

open TrustVerifier

/-- A policy that gives events both ways. -/
def conflicted (pcr : Pcr) : PcrPolicy :=
  { valuePolicy pcr "ab" with
    logEquals := some ⟨[event "01"], .empty⟩, logIncludes := some [event "02"] }

/-- A flavor with such a policy, of which only the value is looked at. -/
def contradictory : SignedFlavor := esxi .platform [conflicted firmwareRegister]

/-- The policy is an error for Intel hosts and for the log of modules, and a value else. -/
theorem conflicted_where_looked_at :
    (∃ report, lenient.verifyFlavorAt .blank contradictory moment = .ok report) ∧
    lenient.rulesFor .blank moment (esxi .os [conflicted moduleRegister]) =
      .error (.conflictingPolicy moduleRegister) ∧
    lenient.rulesFor .blank moment ⟨flavor .os [conflicted firmwareRegister], ""⟩ =
      .error (.conflictingPolicy firmwareRegister) := by
  refine ⟨?_, ?_, ?_⟩
  · obtain ⟨-, -, evaluated, -⟩ := @exists_rules_iff_of_conflicting _ lenient .blank
      contradictory moment rfl _ (.head _) (by decide)
    have allowed : RuleContext.LayoutAllows ⟨contradictory, .blank, anchors, moment⟩ :=
      ⟨.v20, .platform, by decide +kernel, by decide +kernel, by decide +kernel, trivial⟩
    exact (evaluated (by decide +kernel) allowed).mpr nofun
  · obtain ⟨-, -, -, -, looked⟩ := @exists_rules_iff_of_conflicting _ lenient .blank
      (esxi .os [conflicted moduleRegister]) moment rfl _ (.head _) (by decide)
    exact looked .v20 .os (by decide +kernel) (by decide +kernel) (by decide +kernel) (.inl rfl)
      (by decide +kernel)
  · obtain ⟨-, -, -, all, -⟩ := @exists_rules_iff_of_conflicting _ lenient .blank
      ⟨flavor .os [conflicted firmwareRegister], ""⟩ moment rfl _ (.head _) (by decide)
    obtain ⟨q, first, failed⟩ := all .os [] (by decide +kernel) (by decide +kernel)
      (by decide +kernel) rfl
    obtain rfl : conflicted firmwareRegister = q := Option.some.inj first
    exact failed

/-- A flavor with the policy has rules, and is evaluated. -/
theorem evaluated_with_conflict : (conflicted firmwareRegister).Conflicting ∧
    conflicted firmwareRegister ∈ contradictory.flavor.pcrs ∧
    (∃ rules, lenient.rulesFor .blank moment contradictory = .ok rules) ∧
    ∃ report, lenient.verifyFlavorAt .blank contradictory moment = .ok report := by
  refine ⟨by decide, .head _, ?_, ?_⟩
  · obtain ⟨rules, hrules, -⟩ := exists_ok_of_map_eq_some (p := fun _ => true)
      (x := lenient.rulesFor .blank moment contradictory) (by decide +kernel)
    exact ⟨rules, hrules⟩
  · obtain ⟨report, ok, -⟩ := exists_ok_of_map_eq_some (p := fun _ => true)
      (x := lenient.verifyFlavorAt .blank contradictory moment) (by decide +kernel)
    exact ⟨report, ok⟩

end Sample

end HostTrust
