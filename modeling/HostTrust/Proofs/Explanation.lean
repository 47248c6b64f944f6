/-
HostTrust.Proofs.Explanation — why a host is not trusted.

A verdict is negative because of a fault, or because there was nothing to check.
The second happens only where no flavor has a rule (`results_eq_nil_iff`), and
never where signatures are checked, since every flavor has a rule there. So a
negative verdict with checked signatures always names a fault
(`trusted_eq_false_iff_of_verified`).
-/
import HostTrust.Proofs.Agreement

namespace HostTrust

open Outcome

namespace TrustVerifier

variable [CertificateLibrary] {v : TrustVerifier} {m : HostManifest} {time : Int}

/-- There is one result for each rule. -/
theorem results_eq_nil_iff {f : SignedFlavor} {rs : List RuleResult}
    (h : v.results m time f = .ok rs) : rs = [] ↔ v.rulesFor m time f = .ok [] := by
  obtain ⟨rules, hrules, judged⟩ := results_eq_ok_iff.mp h
  rw [hrules, Except.ok.injEq]
  constructor
  · rintro rfl
    exact List.forall₂_nil_right_iff.mp judged
  · rintro rfl
    exact List.forall₂_nil_left_iff.mp judged

/-- With signatures, every flavor has a rule. -/
theorem rulesFor_ne_nil_of_signatures {f : SignedFlavor} (on : v.skipSignature = false) :
    v.rulesFor m time f ≠ .ok [] := by
  intro none
  obtain ⟨_, _, _, _, _, _, -, -, -, -, -, -, appended⟩ := RuleContext.rules_eq_ok_iff.mp none
  simp [RuleContext.signatureRules, on] at appended

/-- The report against the only flavor of a list, or against all flavors of it. -/
def Reports (v : TrustVerifier) (m : HostManifest) (flavors : List SignedFlavor) (time : Int)
    (report : TrustReport) : Prop :=
  (∃ f, flavors = [f] ∧ v.verifyFlavorAt m f time = .ok report) ∨
    v.verifyAllOfAt m flavors time = .ok report

variable {flavors : List SignedFlavor} {report : TrustReport}

theorem Reports.ne_nil (h : v.Reports m flavors time report) : flavors ≠ [] := by
  rcases h with ⟨f, rfl, -⟩ | ok
  · exact List.cons_ne_nil _ _
  · exact (verifyAllOfAt_eq_ok_iff.mp ok).1

theorem Reports.accurate (h : v.Reports m flavors time report) : report.Accurate := by
  rcases h with ⟨f, rfl, ok⟩ | ok
  · exact trusted_of_verifyFlavorAt ok
  · obtain ⟨-, outcomes, evaluated, -⟩ := verifyAllOfAt_eq_ok_iff.mp ok
    exact (results_verifyAllOfAt ok evaluated).2

/-- A report without results is about flavors without rules. -/
theorem Reports.results_eq_nil_iff (h : v.Reports m flavors time report) :
    report.results = [] ↔ ∀ f ∈ flavors, v.rulesFor m time f = .ok [] := by
  rcases h with ⟨f, rfl, ok⟩ | ok
  · simpa using TrustVerifier.results_eq_nil_iff (results_of_verifyFlavorAt ok)
  · obtain ⟨-, outcomes, evaluated, -⟩ := verifyAllOfAt_eq_ok_iff.mp ok
    have each : (∀ f ∈ flavors, v.rulesFor m time f = .ok []) ↔ ∀ o ∈ outcomes, o.2 = [] :=
      forall_mem_iff_of_forall₂ evaluated fun f o hf =>
        (TrustVerifier.results_eq_nil_iff hf.2).symm
    rw [each, (results_verifyAllOfAt ok evaluated).1, List.append_eq_nil_iff,
      List.flatMap_eq_nil_iff, List.map_eq_nil_iff, missingParts_eq_nil_iff]
    refine and_iff_left_of_imp ?_
    intro none o ho x hx
    simp [none o ho] at hx

/-- A negative verdict is explained by a fault, unless there was nothing to check. -/
theorem trusted_eq_false_iff_of_verified (h : v.Reports m flavors time report) :
    (report.trusted = false ↔ report.faults ≠ [] ∨ report.results = []) ∧
      (report.results = [] ↔ ∀ f ∈ flavors, v.rulesFor m time f = .ok []) ∧
      (v.skipSignature = false → (report.trusted = false ↔ report.faults ≠ [])) := by
  refine ⟨h.accurate.trusted_eq_false_iff, h.results_eq_nil_iff, fun on => ?_⟩
  have any : report.results ≠ [] := by
    intro none
    obtain ⟨f, hf⟩ := List.exists_mem_of_ne_nil _ h.ne_nil
    exact rulesFor_ne_nil_of_signatures on (h.results_eq_nil_iff.mp none f hf)
  simpa [any] using h.accurate.trusted_eq_false_iff

end TrustVerifier

namespace Sample

open TrustVerifier

/-- The second flavor is not signed, so that there is a fault. -/
theorem faults_beside_unsigned : verifier.skipSignature = false ∧ ∃ report,
    verifier.Reports manifest [platform, bare] moment report ∧ report.trusted = false ∧
      report.faults ≠ [] := by
  obtain ⟨report, ok, untrusted⟩ : ∃ report,
      verifier.verifyAllOfAt manifest [platform, bare] moment = .ok report ∧
        (!report.trusted) = true := exists_ok_of_map_eq_some (by decide +kernel)
  have reported : verifier.Reports manifest [platform, bare] moment report := .inr ok
  have negative : report.trusted = false := by simpa using untrusted
  obtain ⟨-, -, explained⟩ := trusted_eq_false_iff_of_verified reported
  exact ⟨rfl, report, reported, negative, (explained rfl).mp negative⟩

/-- Where signatures are left out and nothing is asked for, the host is not trusted, and no
fault says why. -/
theorem untrusted_without_fault : ∃ report,
    lenient.verifyFlavorAt manifest bare moment = .ok report ∧
    lenient.verifyAllOfAt manifest [bare] moment = .ok report ∧
    ¬ (report.trusted = false ↔ report.faults ≠ []) := by
  obtain ⟨rs, hrs, none⟩ : ∃ rs, lenient.results manifest moment bare = .ok rs ∧
      rs.isEmpty = true := exists_ok_of_map_eq_some (by decide +kernel)
  obtain rfl := List.isEmpty_iff.mp none
  have described : bare.flavor.part = .ok .os := by decide +kernel
  have evaluated : List.Forall₂ (lenient.Evaluates manifest moment) [bare] [(.os, [])] :=
    .cons ⟨described, hrs⟩ .nil
  refine ⟨TrustReport.empty, verifyFlavorAt_eq_ok_iff.mpr ⟨[], hrs, rfl⟩,
    verifyAllOfAt_eq_ok_iff.mpr ⟨List.cons_ne_nil _ _, _, evaluated, rfl⟩, ?_⟩
  simp [TrustReport.empty, TrustReport.faults]

end Sample

end HostTrust
