/-
HostTrust.Proofs.Report — the verdict of a report is that of its results.

A result carries its verdict, which is that of its faults by its very type
(`RuleResult.trusted_eq`). A report carries its verdict and updates it with each
result that is added; the update looks at the old verdict and at whether there
were results before.
`Accurate` says what the verdict has to mean: there are results, and none of
them has faults. The empty report is accurate, and adding results keeps it so,
in whatever order and number they come.
-/
import HostTrust.Report

namespace HostTrust

@[simp] theorem RuleResult.trusted_iff {r : RuleResult} : r.trusted = true ↔ r.faults = [] := by
  simp [r.trusted_eq]

@[simp] theorem RuleResult.trusted_eq_false_iff {r : RuleResult} :
    r.trusted = false ↔ r.faults ≠ [] := by
  simp [r.trusted_eq]

/-- The other parts of a result leave no choice for its verdict. -/
@[simp] theorem RuleResult.ofFaults_eq_self (r : RuleResult) :
    ofFaults r.rule r.flavorId r.faults r.mismatches = r := by
  obtain ⟨rule, id, trusted, faults, mismatches, rfl⟩ := r
  rfl

theorem RuleResult.ofFaults_append (rule : RuleInfo) (id : Option Uuid) (faults : List Fault)
    (f : Fault) (mismatches : List EventMismatch) :
    ofFaults rule id (faults ++ [f]) mismatches =
      (ofFaults rule id faults mismatches).addFault f :=
  ofFaults_eq_self ((ofFaults rule id faults mismatches).addFault f)

namespace TrustReport

/-- The verdict says that there are results and that none of them has faults. -/
def Accurate (r : TrustReport) : Prop :=
  r.trusted = true ↔ r.results ≠ [] ∧ ∀ x ∈ r.results, x.faults = []

theorem accurate_iff {r : TrustReport} :
    r.Accurate ↔ r.trusted = (!r.results.isEmpty && r.results.all RuleResult.trusted) := by
  rw [Bool.eq_iff_iff]
  simp [Accurate]

@[simp] theorem results_addResult (r : TrustReport) (x : RuleResult) :
    (r.addResult x).results = r.results ++ [x] := rfl

theorem accurate_empty : empty.Accurate := by
  simp [Accurate, empty]

theorem Accurate.addResult {r : TrustReport} (h : r.Accurate) (x : RuleResult) :
    (r.addResult x).Accurate := by
  -- A first result decides alone; a later one counts beside the verdict so far.
  have before : (r.trusted = true ∨ r.results = []) ↔ ∀ y ∈ r.results, y.faults = [] := by
    unfold Accurate at h
    rw [h]
    by_cases none : r.results = [] <;> simp [none]
  simp [Accurate, TrustReport.addResult, before, or_imp, forall_and]

@[simp] theorem results_addResults (r : TrustReport) (xs : List RuleResult) :
    (r.addResults xs).results = r.results ++ xs := by
  induction xs generalizing r with
  | nil => simp [addResults]
  | cons x xs ih =>
    rw [addResults, List.foldl_cons, ← addResults, ih]
    simp

theorem Accurate.addResults {r : TrustReport} (h : r.Accurate) (xs : List RuleResult) :
    (r.addResults xs).Accurate := by
  induction xs generalizing r with
  | nil => exact h
  | cons x xs ih => exact ih (h.addResult x)

/-- What is not trusted has a fault, or nothing in it at all. -/
theorem Accurate.trusted_eq_false_iff {r : TrustReport} (h : r.Accurate) :
    r.trusted = false ↔ r.faults ≠ [] ∨ r.results = [] := by
  have clean : r.faults = [] ↔ ∀ x ∈ r.results, x.faults = [] := List.flatMap_eq_nil_iff
  unfold Accurate at h
  rw [← Bool.not_eq_true, h, ← clean]
  by_cases none : r.results = [] <;> simp [none]

/-- The verdict of the report that holds just these results. -/
theorem trusted_addResults_empty {xs : List RuleResult} :
    (empty.addResults xs).trusted = true ↔ xs ≠ [] ∧ ∀ x ∈ xs, x.faults = [] := by
  have h := accurate_empty.addResults xs
  rw [Accurate, results_addResults] at h
  simpa [empty] using h

/-- With the verdict of a report without results left out, only faults count. -/
theorem trusted_unless_empty_iff {xs : List RuleResult} :
    ((empty.addResults xs).results ≠ [] → (empty.addResults xs).trusted = true) ↔
      ∀ x ∈ xs, x.faults = [] := by
  rw [trusted_addResults_empty]
  by_cases none : xs = [] <;> simp [none, empty]

end TrustReport

end HostTrust
