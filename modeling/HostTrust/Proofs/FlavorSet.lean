/-
HostTrust.Proofs.FlavorSet — the verdict against several flavors depends on
which flavors they are, not on their order and not on how often one is given.

What decides the outcome is said of the members of the list alone: whether
there is a report (`exists_verifyAllOfAt_iff`), whether it is trusted
(`trusted_iff_forall_mem`), and for which parts of the host it reports that a
flavor is not satisfied (`PartFails`). So lists with the same members share all
three, and a permutation of the flavors permutes the results
(`verifyAllOfAt_of_same_members`).
-/
import HostTrust.Proofs.Agreement
import HostTrust.Proofs.AggregateReport
import Mathlib.Data.List.Perm.Basic

namespace HostTrust

open Outcome

namespace TrustVerifier

variable [CertificateLibrary] {v : TrustVerifier} {m : HostManifest} {time : Int}
  {flavors others : List SignedFlavor}

/-- The verdict, said of the flavors one by one: the running verdict that looks at the results
so far does not show. -/
theorem trusted_iff_forall_mem {report : TrustReport}
    (ok : v.verifyAllOfAt m flavors time = .ok report) :
    report.trusted = true ↔
      (∃ f ∈ flavors, ∃ rs, v.results m time f = .ok rs ∧ rs ≠ []) ∧
      ∀ f ∈ flavors, ∀ rs, v.results m time f = .ok rs → ∀ x ∈ rs, x.faults = [] := by
  obtain ⟨-, outcomes, evaluated, -⟩ := verifyAllOfAt_eq_ok_iff.mp ok
  rw [trusted_verifyAllOfAt_iff ok evaluated]
  refine and_congr ?_ ?_
  · constructor
    · rintro ⟨o, ho, any⟩
      obtain ⟨f, hf, -, hrs⟩ := exists_left_of_mem evaluated ho
      exact ⟨f, hf, o.2, hrs, any⟩
    · rintro ⟨f, hf, rs, hrs, any⟩
      obtain ⟨o, ho, -, hrs'⟩ := exists_right_of_mem evaluated hf
      obtain rfl : rs = o.2 := by simpa [hrs] using hrs'
      exact ⟨o, ho, any⟩
  · refine (forall_mem_iff_of_forall₂ evaluated ?_).symm
    rintro f o ⟨-, hrs⟩
    simp [hrs]

/-- Whether a flavor for a part is not satisfied is a question about members. -/
theorem partFails_congr (same : ∀ f, f ∈ flavors ↔ f ∈ others) (part : FlavorPart) :
    v.PartFails m time flavors part ↔ v.PartFails m time others part := by
  simp [PartFails, same]

theorem exists_verifyAllOfAt_congr (same : ∀ f, f ∈ flavors ↔ f ∈ others) :
    (∃ report, v.verifyAllOfAt m flavors time = .ok report) ↔
      ∃ report, v.verifyAllOfAt m others time = .ok report := by
  by_cases none : flavors = []
  · have none' : others = [] := by
      refine List.eq_nil_iff_forall_not_mem.mpr fun f hf => ?_
      simpa [none] using (same f).mpr hf
    rw [none, none']
  · have any : others ≠ [] := by
      obtain ⟨f, hf⟩ := List.exists_mem_of_ne_nil _ none
      exact List.ne_nil_of_mem ((same f).mp hf)
    rw [exists_verifyAllOfAt_iff none, exists_verifyAllOfAt_iff any]
    simp only [same]

/-- The reports on permuted flavors are the permuted reports. -/
theorem perm_of_aggregates {reports reports' : List TrustReport} {parts : List FlavorPart}
    {report report' : TrustReport} (perm : flavors.Perm others)
    (h : v.Aggregates m time flavors reports parts report)
    (h' : v.Aggregates m time others reports' parts report') :
    report.results.Perm report'.results := by
  have each : reports.Perm reports' :=
    List.rel_perm_imp reportsOn_rightUnique h.each h'.each perm
  rw [h.results, h'.results]
  exact (each.flatMap_right _).append_right _

/-- Lists with the same flavors, in any order and with any repetitions, are both verified or both
not. Their reports have the same verdict and end with the same results about missing parts; what
stands before is what is found for each flavor, so that permuted flavors have permuted results. -/
theorem verifyAllOfAt_of_same_members (v : TrustVerifier) (m : HostManifest) (time : Int)
    (same : ∀ f, f ∈ flavors ↔ f ∈ others) :
    ((∃ report, v.verifyAllOfAt m flavors time = .ok report) ∧
        (∃ report, v.verifyAllOfAt m others time = .ok report) ∨
      (∃ e, v.verifyAllOfAt m flavors time = .error e) ∧
        ∃ e, v.verifyAllOfAt m others time = .error e) ∧
    ∀ report report', v.verifyAllOfAt m flavors time = .ok report →
      v.verifyAllOfAt m others time = .ok report' →
      report.trusted = report'.trusted ∧
      (∃ parts reports reports', v.Aggregates m time flavors reports parts report ∧
        v.Aggregates m time others reports' parts report') ∧
      (flavors.Perm others → report.results.Perm report'.results) := by
  have both : (∃ report, v.verifyAllOfAt m flavors time = .ok report) ↔
      ∃ report, v.verifyAllOfAt m others time = .ok report := exists_verifyAllOfAt_congr same
  constructor
  · cases outcome : v.verifyAllOfAt m flavors time with
    | ok report => exact .inl ⟨⟨report, rfl⟩, both.mp ⟨report, outcome⟩⟩
    | error e =>
      cases outcome' : v.verifyAllOfAt m others time with
      | ok report' => simpa [outcome] using both.mpr ⟨report', outcome'⟩
      | error e' => exact .inr ⟨⟨e, rfl⟩, e', rfl⟩
  · intro report report' ok ok'
    have verdict : report.trusted = report'.trusted := by
      rw [Bool.eq_iff_iff, trusted_iff_forall_mem ok, trusted_iff_forall_mem ok']
      simp only [same]
    obtain ⟨reports, parts, aggregate⟩ := exists_aggregates ok
    obtain ⟨reports', parts', aggregate'⟩ := exists_aggregates ok'
    obtain rfl : parts = parts' :=
      FlavorPart.sublist_ext (by decide) aggregate.ordered aggregate'.ordered fun part =>
        (aggregate.failing part).trans
          ((partFails_congr same part).trans (aggregate'.failing part).symm)
    exact ⟨verdict, ⟨parts, reports, reports', aggregate, aggregate'⟩,
      fun perm => perm_of_aggregates perm aggregate aggregate'⟩

end TrustVerifier

namespace Sample

open TrustVerifier

/-- A flavor with a policy that the host does not meet. -/
def unmet : SignedFlavor := ⟨flavor .hostUnique [{ policy with measurement := "00" }], ""⟩

set_option maxRecDepth 10000 in
/-- The flavor that is not satisfied is reported in the same way wherever it stands. -/
theorem results_perm_of_unmet : (∀ f, f ∈ [os, unmet, bare] ↔ f ∈ [unmet, bare, os]) ∧
    ∃ report report', lenient.verifyAllOfAt manifest [os, unmet, bare] moment = .ok report ∧
      lenient.verifyAllOfAt manifest [unmet, bare, os] moment = .ok report' ∧
      report.trusted = false ∧ report'.trusted = false ∧
      report.results.Perm report'.results := by
  have perm : ([os] ++ [unmet, bare]).Perm ([unmet, bare] ++ [os]) := List.perm_append_comm
  obtain ⟨report, ok, untrusted⟩ : ∃ report,
      lenient.verifyAllOfAt manifest [os, unmet, bare] moment = .ok report ∧
        (!report.trusted) = true := exists_ok_of_map_eq_some (by decide)
  have negative : report.trusted = false := by simpa using untrusted
  obtain ⟨both, agree⟩ :=
    verifyAllOfAt_of_same_members lenient manifest moment fun f => perm.mem_iff
  rcases both with ⟨-, report', ok'⟩ | ⟨⟨e, failed⟩, -⟩
  · obtain ⟨verdict, -, permuted⟩ := agree report report' ok ok'
    exact ⟨fun f => perm.mem_iff, report, report', ok, ok', negative, verdict ▸ negative,
      permuted perm⟩
  · simp [ok] at failed

end Sample

end HostTrust
