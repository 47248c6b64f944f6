/-
HostTrust.Proofs.AggregateReport — the report against several flavors, told by
the reports against each of them.

Verification against several flavors fails with the error of the first flavor
that cannot be verified alone (`verifyAllOfAt_eq_error_iff`). Otherwise its
report is the aggregate of the single ones: all their results in order, then one
result for each part of the host for which a flavor is not satisfied
(`Aggregates`). There is only one such report (`Aggregates.unique`), so that
`verifyAllOfAt_eq_error_and_ok_iff` tells the outcome in full.
-/
import HostTrust.Proofs.RuleSet

namespace HostTrust

open Outcome

/-- Of the members of a list without repetitions, those of a sublist are the sublist. -/
theorem FlavorPart.filter_eq_of_sublist {ps all : List FlavorPart} (distinct : all.Nodup)
    (ordered : ps.Sublist all) {p : FlavorPart → Bool}
    (members : ∀ part ∈ all, p part = true ↔ part ∈ ps) : all.filter p = ps := by
  induction ordered with
  | slnil => rfl
  | @cons ps all a h ih =>
    obtain ⟨fresh, distinct⟩ := List.nodup_cons.mp distinct
    obtain ⟨first, rest⟩ := List.forall_mem_cons.mp members
    have left : ¬ p a = true := fun pa => fresh (h.subset (first.mp pa))
    rw [List.filter_cons_of_neg left, ih distinct rest]
  | @cons_cons ps all a h ih =>
    obtain ⟨fresh, distinct⟩ := List.nodup_cons.mp distinct
    obtain ⟨first, rest⟩ := List.forall_mem_cons.mp members
    have others : ∀ part ∈ all, p part = true ↔ part ∈ ps := by
      intro part hpart
      have ne : part ≠ a := fun same => fresh (same ▸ hpart)
      simpa [ne] using rest part hpart
    rw [List.filter_cons_of_pos (first.mpr List.mem_cons_self), ih distinct others]

/-- Sublists of a list without repetitions are told by their members. -/
theorem FlavorPart.sublist_ext {ps qs all : List FlavorPart} (distinct : all.Nodup)
    (ordered : ps.Sublist all) (ordered' : qs.Sublist all)
    (same : ∀ part, part ∈ ps ↔ part ∈ qs) : ps = qs := by
  rw [← FlavorPart.filter_eq_of_sublist (p := ps.contains) distinct ordered (by simp),
    ← FlavorPart.filter_eq_of_sublist (p := ps.contains) distinct ordered' (by simp [same])]

namespace TrustVerifier

variable [CertificateLibrary] {v : TrustVerifier} {m : HostManifest} {time : Int}

/-! ## Failures -/

theorem verifyFlavorAt_eq_error_iff {f : SignedFlavor} {e : VerificationError} :
    v.verifyFlavorAt m f time = .error e ↔ v.results m time f = .error e := by
  simp [verifyFlavorAt]

theorem exists_part_of_results {f : SignedFlavor} {rs : List RuleResult}
    (h : v.results m time f = .ok rs) : ∃ part, f.flavor.part = .ok part := by
  obtain ⟨rules, hrules, -⟩ := results_eq_ok_iff.mp h
  obtain ⟨part, -, -, -, -, -, described, -⟩ := RuleContext.rules_eq_ok_iff.mp hrules
  exact ⟨part, described⟩

/-- What the verification of one of several flavors does. -/
def evaluation (v : TrustVerifier) (m : HostManifest) (time : Int) (f : SignedFlavor) :
    Except VerificationError (FlavorPart × List RuleResult) := do
  return (← f.flavor.part, ← v.results m time f)

/-- That the part is looked up first shows in no error: the rules begin with it too. -/
theorem evaluation_eq_error_iff {f : SignedFlavor} {e : VerificationError} :
    v.evaluation m time f = .error e ↔ v.verifyFlavorAt m f time = .error e := by
  rw [verifyFlavorAt_eq_error_iff]
  cases described : f.flavor.part with
  | error e' =>
    have same : v.results m time f = .error e' := by
      simp [results, RuleContext.rules, RuleContext.flavor, described]
    simp [evaluation, described, same]
  | ok part => simp [evaluation, described]

theorem exists_evaluation_iff {f : SignedFlavor} :
    (∃ o, v.evaluation m time f = .ok o) ↔ ∃ r, v.verifyFlavorAt m f time = .ok r := by
  simp only [evaluation, verifyFlavorAt_eq_ok_iff, bind_eq_ok_iff, pure_eq_ok_iff]
  constructor
  · rintro ⟨_, part, -, rs, hrs, -⟩
    exact ⟨_, rs, hrs, rfl⟩
  · rintro ⟨_, rs, hrs, -⟩
    obtain ⟨part, described⟩ := exists_part_of_results hrs
    exact ⟨_, part, described, rs, hrs, rfl⟩

/-- The first flavor that cannot be verified decides, whatever was found before. -/
theorem verifyAllOfAt_eq_error_iff {flavors : List SignedFlavor} {e : VerificationError} :
    v.verifyAllOfAt m flavors time = .error e ↔
      (flavors = [] ∧ e = .noFlavors) ∨
      ∃ before f after, flavors = before ++ f :: after ∧
        (∀ g ∈ before, ∃ r, v.verifyFlavorAt m g time = .ok r) ∧
        v.verifyFlavorAt m f time = .error e := by
  cases flavors with
  | nil =>
    have empty : v.verifyAllOfAt m [] time = .error .noFlavors := rfl
    simp [empty, eq_comm]
  | cons f rest =>
    have opened : v.verifyAllOfAt m (f :: rest) time = .error e ↔
        (f :: rest).mapM (v.evaluation m time) = .error e := by
      simp only [verifyAllOfAt, List.isEmpty_cons, Bool.false_eq_true, if_false,
        bind_eq_error_iff, pure_ne_error, and_false, exists_false, or_false]
      rfl
    rw [opened, mapM_eq_error_iff]
    simp only [evaluation_eq_error_iff, exists_evaluation_iff, List.cons_ne_nil, false_and, false_or]

/-- Otherwise there is a report. -/
theorem exists_verifyAllOfAt_iff {flavors : List SignedFlavor} (nonempty : flavors ≠ []) :
    (∃ report, v.verifyAllOfAt m flavors time = .ok report) ↔
      ∀ f ∈ flavors, ∃ r, v.verifyFlavorAt m f time = .ok r := by
  constructor
  · rintro ⟨report, ok⟩ f hf
    obtain ⟨-, outcomes, evaluated, -⟩ := verifyAllOfAt_eq_ok_iff.mp ok
    obtain ⟨o, -, -, hrs⟩ := exists_right_of_mem evaluated hf
    exact ⟨_, verifyFlavorAt_eq_ok_iff.mpr ⟨o.2, hrs, rfl⟩⟩
  · intro each
    cases outcome : v.verifyAllOfAt m flavors time with
    | ok report => exact ⟨report, rfl⟩
    | error e =>
      rcases verifyAllOfAt_eq_error_iff.mp outcome with
        ⟨none, -⟩ | ⟨before, f, after, rfl, -, failed⟩
      · exact absurd none nonempty
      · obtain ⟨r, verified⟩ := each f (List.mem_append_right before (.head after))
        simp [failed] at verified

/-! ## Reports -/

/-- The report against one flavor: what each of its rules finds, in their order, under the
identifier of the flavor. -/
structure ReportsOn (v : TrustVerifier) (m : HostManifest) (time : Int) (f : SignedFlavor)
    (r : TrustReport) : Prop where
  verified : v.verifyFlavorAt m f time = .ok r
  byRule : ∃ rules, v.rulesFor m time f = .ok rules ∧
    List.Forall₂ (fun rule x => ∃ found, rule.judge m = .ok found ∧
      x = { found with flavorId := f.flavor.id? }) rules r.results

/-- A flavor for the part can be verified, and the host does not satisfy it. -/
def PartFails (v : TrustVerifier) (m : HostManifest) (time : Int) (flavors : List SignedFlavor)
    (part : FlavorPart) : Prop :=
  ∃ f ∈ flavors, f.flavor.part = .ok part ∧
    ∃ r, v.verifyFlavorAt m f time = .ok r ∧ ∃ x ∈ r.results, x.trusted = false

/-- The report against several flavors, from the reports against each and the parts of the host
for which a flavor is not satisfied. -/
structure Aggregates (v : TrustVerifier) (m : HostManifest) (time : Int)
    (flavors : List SignedFlavor) (reports : List TrustReport) (parts : List FlavorPart)
    (report : TrustReport) : Prop where
  each : List.Forall₂ (v.ReportsOn m time) flavors reports
  /-- In the order of reports, each once. -/
  ordered : parts.Sublist [.platform, .os, .hostUnique, .software, .assetTag]
  failing : ∀ part, part ∈ parts ↔ v.PartFails m time flavors part
  results : report.results = reports.flatMap TrustReport.results ++ parts.map fun part =>
    ⟨.ofRule "AllOfFlavors" [part], none, false,
      [.plain .allOfFlavorsMissing ("All of flavor types missing: " ++ part.name)], [], rfl⟩
  verdict : report.trusted = (!report.results.isEmpty && report.results.all RuleResult.trusted)

theorem reportsOn_of_results {f : SignedFlavor} {rs : List RuleResult}
    (h : v.results m time f = .ok rs) :
    v.ReportsOn m time f (TrustReport.empty.addResults rs) := by
  obtain ⟨rules, hrules, judged⟩ := results_eq_ok_iff.mp h
  refine ⟨verifyFlavorAt_eq_ok_iff.mpr ⟨rs, h, rfl⟩, rules, hrules, ?_⟩
  rw [TrustReport.results_addResults]
  refine judged.imp ?_
  rintro rule x ⟨found, hfound, rfl⟩
  exact ⟨found, hfound, rfl⟩

theorem reportsOn_rightUnique : Relator.RightUnique (v.ReportsOn m time) := by
  intro f r r' hr hr'
  simpa [hr.verified] using hr'.verified

/-- The flavors and the host leave no choice. -/
theorem Aggregates.unique {flavors : List SignedFlavor} {reports reports' : List TrustReport}
    {parts parts' : List FlavorPart} {report report' : TrustReport}
    (h : v.Aggregates m time flavors reports parts report)
    (h' : v.Aggregates m time flavors reports' parts' report') : report = report' := by
  have reports_eq : reports = reports' :=
    List.right_unique_forall₂' reportsOn_rightUnique h.each h'.each
  have parts_eq : parts = parts' :=
    FlavorPart.sublist_ext (by decide) h.ordered h'.ordered fun part =>
      (h.failing part).trans (h'.failing part).symm
  have results_eq : report.results = report'.results := by
    rw [h.results, h'.results, reports_eq, parts_eq]
  have verdict_eq : report.trusted = report'.trusted := by
    rw [h.verdict, h'.verdict, results_eq]
  obtain ⟨trusted, results⟩ := report
  obtain ⟨trusted', results'⟩ := report'
  simp_all

theorem partFails_iff {flavors : List SignedFlavor} {outcomes : List (FlavorPart × List RuleResult)}
    (evaluated : List.Forall₂ (v.Evaluates m time) flavors outcomes) {part : FlavorPart} :
    v.PartFails m time flavors part ↔ part ∈ missingParts outcomes := by
  rw [mem_missingParts_iff]
  constructor
  · rintro ⟨f, hf, described, r, verified, faulty⟩
    obtain ⟨o, ho, evaluates⟩ := exists_right_of_mem evaluated hf
    obtain rfl : o = (part, r.results) :=
      evaluates.unique ⟨described, results_of_verifyFlavorAt verified⟩
    exact ⟨_, ho, rfl, faulty⟩
  · rintro ⟨o, ho, rfl, faulty⟩
    obtain ⟨f, hf, described, hrs⟩ := exists_left_of_mem evaluated ho
    have report := reportsOn_of_results hrs
    refine ⟨f, hf, described, _, report.verified, ?_⟩
    simpa [TrustReport.empty] using faulty

/-- What is reported against several flavors is the aggregate. -/
theorem exists_aggregates {flavors : List SignedFlavor} {report : TrustReport}
    (ok : v.verifyAllOfAt m flavors time = .ok report) :
    ∃ reports parts, v.Aggregates m time flavors reports parts report := by
  obtain ⟨-, outcomes, evaluated, -⟩ := verifyAllOfAt_eq_ok_iff.mp ok
  obtain ⟨results, accurate⟩ := results_verifyAllOfAt ok evaluated
  refine ⟨outcomes.map fun o => TrustReport.empty.addResults o.2, missingParts outcomes, ?_⟩
  constructor
  case each =>
    refine List.forall₂_map_right_iff.mpr (evaluated.imp ?_)
    rintro f ⟨part, rs⟩ ⟨-, hrs⟩
    exact reportsOn_of_results hrs
  case ordered => exact List.filter_sublist
  case failing => exact fun part => (partFails_iff evaluated).symm
  case results =>
    rw [results, List.flatMap_map]
    simp only [TrustReport.results_addResults]
    rfl
  case verdict => exact TrustReport.accurate_iff.mp accurate

/-- The outcome in full. -/
theorem verifyAllOfAt_eq_error_and_ok_iff (v : TrustVerifier) (m : HostManifest)
    (flavors : List SignedFlavor) (time : Int) :
    (∀ e, v.verifyAllOfAt m flavors time = .error e ↔
      (flavors = [] ∧ e = .noFlavors ∧ e.kind = .flavor) ∨
      ∃ before f after, flavors = before ++ f :: after ∧
        (∀ g ∈ before, ∃ r, v.verifyFlavorAt m g time = .ok r) ∧
        v.verifyFlavorAt m f time = .error e) ∧
    ∀ report, v.verifyAllOfAt m flavors time = .ok report ↔
      flavors ≠ [] ∧ ∃ reports parts, v.Aggregates m time flavors reports parts report := by
  constructor
  · intro e
    rw [verifyAllOfAt_eq_error_iff]
    refine or_congr_left (and_congr_right fun _ => ⟨?_, And.left⟩)
    rintro rfl
    exact ⟨rfl, rfl⟩
  · intro report
    constructor
    · intro ok
      exact ⟨(verifyAllOfAt_eq_ok_iff.mp ok).1, exists_aggregates ok⟩
    · rintro ⟨nonempty, reports, parts, aggregate⟩
      have each : ∀ f ∈ flavors, ∃ r, v.verifyFlavorAt m f time = .ok r := by
        intro f hf
        obtain ⟨r, -, found⟩ := exists_right_of_mem aggregate.each hf
        exact ⟨r, found.verified⟩
      obtain ⟨report', outcome⟩ := (exists_verifyAllOfAt_iff nonempty).mpr each
      obtain ⟨reports', parts', aggregate'⟩ := exists_aggregates outcome
      rw [outcome, aggregate.unique aggregate']

end TrustVerifier

end HostTrust
