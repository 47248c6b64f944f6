/-
HostTrust.Proofs.Agreement — the verdict against several flavors and the
verdicts against each of them.

A report without results is not trusted, but among several flavors one without
rules is no obstacle. So the two kinds of verdict agree up to flavors without
results (`trusted_iff_of_each`), and in full where signatures are checked, since
every flavor then has at least that rule.
-/
import HostTrust.Proofs.SignedVerdict

namespace HostTrust

open Outcome

namespace TrustVerifier

variable [CertificateLibrary] {v : TrustVerifier} {m : HostManifest} {time : Int}

/-- Flavors that can be verified together can be verified alone. -/
theorem verifyFlavorAt_of_evaluates {flavors : List SignedFlavor}
    {outcomes : List (FlavorPart × List RuleResult)}
    (evaluated : List.Forall₂ (v.Evaluates m time) flavors outcomes) :
    List.Forall₂ (fun f r => v.verifyFlavorAt m f time = .ok r) flavors
      (outcomes.map fun o => TrustReport.empty.addResults o.2) := by
  refine List.forall₂_map_right_iff.mpr (evaluated.imp ?_)
  rintro f ⟨part, rs⟩ ⟨-, hrs⟩
  exact verifyFlavorAt_eq_ok_iff.mpr ⟨rs, hrs, rfl⟩

/-- With signatures, there is a result for every flavor. -/
theorem results_ne_nil_of_signatures {f : SignedFlavor} {o : FlavorPart × List RuleResult}
    (on : v.skipSignature = false) (h : v.Evaluates m time f o) : o.2 ≠ [] := by
  intro none
  have last := getLast?_results on h.1 h.2
  simp [none] at last

/-- The verdict against several flavors is that against each, flavors without results apart. -/
theorem trusted_iff_of_each {flavors : List SignedFlavor} {report : TrustReport}
    (ok : v.verifyAllOfAt m flavors time = .ok report) :
    ∃ reports, List.Forall₂ (fun f r => v.verifyFlavorAt m f time = .ok r) flavors reports ∧
      (report.trusted = true ↔ (∃ r ∈ reports, r.results ≠ []) ∧
        ∀ r ∈ reports, r.results ≠ [] → r.trusted = true) ∧
      (v.skipSignature = false →
        (report.trusted = true ↔ ∀ r ∈ reports, r.trusted = true)) := by
  obtain ⟨nonempty, outcomes, evaluated, -⟩ := verifyAllOfAt_eq_ok_iff.mp ok
  refine ⟨_, verifyFlavorAt_of_evaluates evaluated, ?_, ?_⟩
  · rw [trusted_verifyAllOfAt_iff ok evaluated]
    simp only [List.forall_mem_map, TrustReport.trusted_unless_empty_iff]
    simp [TrustReport.empty]
  · intro on
    rw [trusted_verifyAllOfAt_iff ok evaluated]
    have any : ∀ o ∈ outcomes, o.2 ≠ [] := by
      intro o ho
      obtain ⟨f, -, hf⟩ := exists_left_of_mem evaluated ho
      exact results_ne_nil_of_signatures on hf
    simp only [List.forall_mem_map, TrustReport.trusted_addResults_empty]
    constructor
    · rintro ⟨-, clean⟩ o ho
      exact ⟨any o ho, clean o ho⟩
    · intro each
      obtain ⟨f, hf⟩ := List.exists_mem_of_ne_nil _ nonempty
      obtain ⟨o, ho, -⟩ := exists_right_of_mem evaluated hf
      exact ⟨⟨o, ho, any o ho⟩, fun o ho => (each o ho).2⟩

end TrustVerifier

namespace Sample

open TrustVerifier

/-- A verifier that leaves signatures out. -/
def lenient : TrustVerifier := { verifier with skipSignature := true }

/-- A flavor that asks for nothing. -/
def bare : SignedFlavor := ⟨flavor .os [], ""⟩

set_option maxRecDepth 10000 in
theorem verifyAllOfAt_bare : ∃ report,
    lenient.verifyAllOfAt manifest [os, bare] moment = .ok report ∧ report.trusted = true :=
  exists_ok_of_map_eq_some (by decide)

theorem each_of_trusted_bare : ∃ report reports,
    lenient.verifyAllOfAt manifest [os, bare] moment = .ok report ∧
      List.Forall₂ (fun f r => lenient.verifyFlavorAt manifest f moment = .ok r)
        [os, bare] reports ∧
      ∀ r ∈ reports, r.results ≠ [] → r.trusted = true := by
  obtain ⟨report, ok, trusted⟩ := verifyAllOfAt_bare
  obtain ⟨reports, each, agree, -⟩ := trusted_iff_of_each ok
  exact ⟨report, reports, ok, each, (agree.mp trusted).2⟩

/-- The host is trusted against both flavors, but not against the second alone. -/
theorem trusted_beside_bare :
    (∃ report, lenient.verifyAllOfAt manifest [os, bare] moment = .ok report ∧
      report.trusted = true) ∧
    lenient.verifyFlavorAt manifest bare moment = .ok TrustReport.empty ∧
    TrustReport.empty.trusted = false := by
  obtain ⟨rs, hrs, none⟩ : ∃ rs, lenient.results manifest moment bare = .ok rs ∧
      rs.isEmpty = true := exists_ok_of_map_eq_some (by decide +kernel)
  obtain rfl := List.isEmpty_iff.mp none
  exact ⟨verifyAllOfAt_bare, verifyFlavorAt_eq_ok_iff.mpr ⟨[], hrs, rfl⟩, rfl⟩

end Sample

end HostTrust
