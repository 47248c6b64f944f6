/-
HostTrust.Proofs.Evaluation — what a verification that gives a report is made of.

`results_eq_ok_iff` takes the evaluation of one flavor apart into its rules and
what each of them found; `verifyFlavorAt_eq_ok_iff` and
`verifyAllOfAt_eq_ok_iff` do the same for the two kinds of report. The verdicts
follow: against one flavor a host is trusted if there are rules and the host
passes all of them (`trusted_of_verifyFlavorAt`), against several if any of
them has a rule and the host passes all rules of all of them
(`trusted_verifyAllOfAt_iff`). The results about missing parts need no case of
their own, since a part is missing only when some rule of it is not passed.
-/
import HostTrust.Proofs.Outcome
import HostTrust.Proofs.Report

namespace HostTrust

open Outcome

/-- The rule can be applied to the host and finds nothing. -/
def Rule.Passes (r : Rule) (m : HostManifest) : Prop :=
  ∃ x, r.judge m = .ok x ∧ x.faults = []

namespace TrustVerifier

variable [CertificateLibrary] {v : TrustVerifier} {m : HostManifest} {time : Int}

/-- The rules of a flavor, as this verifier builds them. -/
def rulesFor (v : TrustVerifier) (m : HostManifest) (time : Int) (f : SignedFlavor) :
    Except VerificationError (List Rule) :=
  RuleContext.rules ⟨f, m, v.anchors, time⟩ v.registry v.skipSignature

/-! ## One flavor -/

theorem results_eq_ok_iff {f : SignedFlavor} {rs : List RuleResult} :
    v.results m time f = .ok rs ↔ ∃ rules, v.rulesFor m time f = .ok rules ∧
      List.Forall₂ (fun r x => ∃ y, r.judge m = .ok y ∧ y.withFlavorId f.flavor.id? = x)
        rules rs := by
  simp [results, rulesFor, mapM_eq_ok_iff]

theorem verifyFlavorAt_eq_ok_iff {f : SignedFlavor} {report : TrustReport} :
    v.verifyFlavorAt m f time = .ok report ↔
      ∃ rs, v.results m time f = .ok rs ∧ TrustReport.empty.addResults rs = report := by
  simp [verifyFlavorAt]

theorem results_of_verifyFlavorAt {f : SignedFlavor} {report : TrustReport}
    (ok : v.verifyFlavorAt m f time = .ok report) :
    v.results m time f = .ok report.results := by
  obtain ⟨rs, hrs, rfl⟩ := verifyFlavorAt_eq_ok_iff.mp ok
  simpa [TrustReport.empty] using hrs

theorem trusted_of_verifyFlavorAt {f : SignedFlavor} {report : TrustReport}
    (ok : v.verifyFlavorAt m f time = .ok report) :
    report.trusted = true ↔ report.results ≠ [] ∧ ∀ x ∈ report.results, x.faults = [] := by
  obtain ⟨rs, -, rfl⟩ := verifyFlavorAt_eq_ok_iff.mp ok
  exact TrustReport.accurate_empty.addResults rs

/-- The results of a flavor are free of faults exactly when the host passes its rules. -/
theorem faultless_iff_passes {f : SignedFlavor} {rules : List Rule} {rs : List RuleResult}
    (hrules : v.rulesFor m time f = .ok rules) (hrs : v.results m time f = .ok rs) :
    (∀ x ∈ rs, x.faults = []) ↔ ∀ r ∈ rules, r.Passes m := by
  obtain ⟨rules', hrules', judged⟩ := results_eq_ok_iff.mp hrs
  obtain rfl : rules = rules' := by simpa [hrules] using hrules'
  refine (forall_mem_iff_of_forall₂ judged ?_).symm
  rintro r x ⟨y, hy, rfl⟩
  simp [Rule.Passes, hy, RuleResult.withFlavorId]

/-! ## Several flavors -/

/-- What the verification of one of several flavors keeps of it. -/
def Evaluates (v : TrustVerifier) (m : HostManifest) (time : Int) (f : SignedFlavor)
    (o : FlavorPart × List RuleResult) : Prop :=
  f.flavor.part = .ok o.1 ∧ v.results m time f = .ok o.2

theorem verifyAllOfAt_eq_ok_iff {flavors : List SignedFlavor} {report : TrustReport} :
    v.verifyAllOfAt m flavors time = .ok report ↔ flavors ≠ [] ∧
      ∃ outcomes, List.Forall₂ (v.Evaluates m time) flavors outcomes ∧
        (TrustReport.empty.addResults (outcomes.flatMap Prod.snd)).addResults
          ((missingParts outcomes).map missingPart) = report := by
  have each : ∀ f o, (∃ part, f.flavor.part = .ok part ∧
      ∃ rs, v.results m time f = .ok rs ∧ (part, rs) = o) ↔ v.Evaluates m time f o := by
    intro f o
    constructor
    · rintro ⟨part, hpart, rs, hrs, rfl⟩
      exact ⟨hpart, hrs⟩
    · rintro ⟨hpart, hrs⟩
      exact ⟨o.1, hpart, o.2, hrs, rfl⟩
  by_cases none : flavors = []
  · simp [verifyAllOfAt, none]
  · simp [verifyAllOfAt, none, mapM_eq_ok_iff, each]

omit [CertificateLibrary] in
theorem mem_missingParts_iff {outcomes : List (FlavorPart × List RuleResult)}
    {part : FlavorPart} :
    part ∈ missingParts outcomes ↔
      ∃ o ∈ outcomes, o.1 = part ∧ ∃ x ∈ o.2, x.trusted = false := by
  have listed : part ∈ FlavorPart.all := by cases part <;> decide
  simp [missingParts, listed]

omit [CertificateLibrary] in
theorem missingParts_eq_nil_iff {outcomes : List (FlavorPart × List RuleResult)} :
    missingParts outcomes = [] ↔ ∀ o ∈ outcomes, ∀ x ∈ o.2, x.faults = [] := by
  rw [List.eq_nil_iff_forall_not_mem]
  simp only [mem_missingParts_iff]
  constructor
  · intro none o ho x hx
    by_contra faulty
    exact none o.1 ⟨o, ho, rfl, x, hx, RuleResult.trusted_eq_false_iff.mpr faulty⟩
  · rintro clean part ⟨o, ho, -, x, hx, faulty⟩
    exact RuleResult.trusted_eq_false_iff.mp faulty (clean o ho x hx)

theorem Evaluates.unique {f : SignedFlavor} {o o' : FlavorPart × List RuleResult}
    (h : v.Evaluates m time f o) (h' : v.Evaluates m time f o') : o = o' := by
  obtain ⟨part, rs⟩ := o
  obtain ⟨part', rs'⟩ := o'
  obtain ⟨hp, hr⟩ := h
  obtain ⟨hp', hr'⟩ := h'
  simp_all

/-- The report holds the results of the flavors in order, then the missing parts. -/
theorem results_verifyAllOfAt {flavors : List SignedFlavor} {report : TrustReport}
    {outcomes : List (FlavorPart × List RuleResult)}
    (ok : v.verifyAllOfAt m flavors time = .ok report)
    (evaluated : List.Forall₂ (v.Evaluates m time) flavors outcomes) :
    report.results = outcomes.flatMap Prod.snd ++ (missingParts outcomes).map missingPart ∧
      report.Accurate := by
  obtain ⟨-, outcomes', evaluated', rfl⟩ := verifyAllOfAt_eq_ok_iff.mp ok
  obtain rfl : outcomes = outcomes' :=
    List.right_unique_forall₂' (fun _ _ _ h h' => h.unique h') evaluated evaluated'
  refine ⟨by simp [TrustReport.empty], ?_⟩
  exact (TrustReport.accurate_empty.addResults _).addResults _

/-- The results about missing parts never change the verdict of the others. -/
theorem trusted_verifyAllOfAt_iff {flavors : List SignedFlavor} {report : TrustReport}
    {outcomes : List (FlavorPart × List RuleResult)}
    (ok : v.verifyAllOfAt m flavors time = .ok report)
    (evaluated : List.Forall₂ (v.Evaluates m time) flavors outcomes) :
    report.trusted = true ↔
      (∃ o ∈ outcomes, o.2 ≠ []) ∧ ∀ o ∈ outcomes, ∀ x ∈ o.2, x.faults = [] := by
  obtain ⟨results, accurate⟩ := results_verifyAllOfAt ok evaluated
  unfold TrustReport.Accurate at accurate
  rw [accurate, results]
  by_cases clean : ∀ o ∈ outcomes, ∀ x ∈ o.2, x.faults = []
  · rw [missingParts_eq_nil_iff.mpr clean]
    simp only [List.map_nil, List.append_nil, ne_eq, List.flatMap_eq_nil_iff, not_forall,
      List.mem_flatMap, exists_prop]
    refine and_congr_right fun _ => ⟨fun _ => clean, ?_⟩
    rintro - x ⟨o, ho, hx⟩
    exact clean o ho x hx
  · refine iff_of_false ?_ (fun h => clean h.2)
    rintro ⟨-, faultless⟩
    refine clean fun o ho x hx => faultless x ?_
    exact List.mem_append_left _ (List.mem_flatMap.mpr ⟨o, ho, hx⟩)

/-- A host is trusted only with all results of all flavors, and then with no others. -/
theorem results_of_trusted {flavors : List SignedFlavor} {report : TrustReport}
    {outcomes : List (FlavorPart × List RuleResult)}
    (ok : v.verifyAllOfAt m flavors time = .ok report)
    (evaluated : List.Forall₂ (v.Evaluates m time) flavors outcomes)
    (trusted : report.trusted = true) :
    report.results = outcomes.flatMap Prod.snd := by
  have clean := ((trusted_verifyAllOfAt_iff ok evaluated).mp trusted).2
  simpa [missingParts_eq_nil_iff.mpr clean] using (results_verifyAllOfAt ok evaluated).1

/-- A host that satisfies one flavor is trusted against the list of it. -/
theorem trusted_verifyAllOfAt_singleton {f : SignedFlavor} {part : FlavorPart}
    {rs : List RuleResult} (described : f.flavor.part = .ok part)
    (hrs : v.results m time f = .ok rs) (any : rs ≠ []) (clean : ∀ x ∈ rs, x.faults = []) :
    ∃ report, v.verifyAllOfAt m [f] time = .ok report ∧ report.trusted = true := by
  have evaluated : List.Forall₂ (v.Evaluates m time) [f] [(part, rs)] :=
    .cons ⟨described, hrs⟩ .nil
  have ok := verifyAllOfAt_eq_ok_iff.mpr ⟨List.cons_ne_nil _ _, _, evaluated, rfl⟩
  refine ⟨_, ok, (trusted_verifyAllOfAt_iff ok evaluated).mpr ?_⟩
  simpa using ⟨any, clean⟩

end TrustVerifier

end HostTrust
