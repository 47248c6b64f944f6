/-
HostTrust.Proofs.ReportHistory — reports that grow and that are read back.

Adding results keeps the verdict of a report accurate. Reading does not: the
verdict of a report that is read is the one that the document states
(`statesVerdict_iff_of_read`), whatever its results are. So a report is accurate
at every point of its history exactly if each document that was read states the
verdict of its own results (`accurate_throughout_iff`). Results do not have this
gap: their verdict is not read but set to that of the faults that were read, and
no result can be made in which it is another (`RuleResult.trusted_eq`). `Carries`
follows the verdict through the ways in which a result comes about
(`carries_iff`).
-/
import HostTrust.Proofs.Record
import HostTrust.Proofs.Report
import HostTrust.Report.Format
import Mathlib.Data.List.Induction

namespace HostTrust

open Outcome Json

/-! ## Results -/

/-- The verdict that a result carries, by the way the result came about. -/
inductive RuleResult.Carries : RuleResult → Bool → Prop where
  | clean (rule : RuleInfo) : Carries (.clean rule) true
  | addFault {x : RuleResult} {b : Bool} (f : Fault) : Carries x b → Carries (x.addFault f) false
  | withFlavorId {x : RuleResult} {b : Bool} (id : Option Uuid) :
    Carries x b → Carries (x.withFlavorId id) b
  | withMismatches {x : RuleResult} {b : Bool} (mismatches : List EventMismatch) :
    Carries x b → Carries (x.withMismatches mismatches) b
  /-- Whatever verdict a document states, it is passed over. -/
  | read {source : Source} {d : Doc} {x : RuleResult} :
    RuleResult.format.read source d = .ok x → Carries x x.faults.isEmpty

namespace RuleResult

/-- Each step that makes a result keeps its verdict up to date. -/
theorem Carries.eq_trusted {x : RuleResult} {b : Bool} (h : x.Carries b) : b = x.trusted := by
  induction h with
  | clean rule => rfl
  | addFault f _ _ => rfl
  | withFlavorId id _ ih => exact ih
  | withMismatches mismatches _ ih => exact ih
  | @read _ _ x _ => exact x.trusted_eq.symm

/-- Every result can be made step by step. -/
theorem carries_trusted (x : RuleResult) : x.Carries x.trusted := by
  obtain ⟨rule, id, _, faults, mismatches, rfl⟩ := x
  have faulty : (ofFaults rule none faults []).Carries faults.isEmpty := by
    induction faults using List.reverseRecOn with
    | nil => exact .clean rule
    | append_singleton faults f ih =>
      have found : (faults ++ [f]).isEmpty = false := by simp
      rw [found, ofFaults_append]
      exact ih.addFault f
  exact (faulty.withFlavorId id).withMismatches mismatches

theorem carries_iff {x : RuleResult} {b : Bool} : x.Carries b ↔ b = x.faults.isEmpty := by
  rw [← x.trusted_eq]
  exact ⟨Carries.eq_trusted, fun h => h ▸ x.carries_trusted⟩

end RuleResult

/-! ## Reading reports -/

/-- The verdict that a document states for the report in it. -/
def Json.Doc.StatesVerdict (d : Doc) (verdict : Bool) : Prop :=
  match d with
  | .object members => (some "trusted", .bool verdict) ∈ members
  | .list items => items.head? = some (.bool verdict)
  | _ => False

theorem Json.read_bool_eq_ok_iff {source : Source} {d : Doc} {b : Bool} :
    Format.bool.read source d = .ok b ↔ d = .bool b := by
  cases d <;> simp [Format.bool]

namespace TrustReport

/-- The verdict of a report that is read is the one that the document states. -/
theorem statesVerdict_iff_of_read {source : Source} {d : Doc} {r : TrustReport}
    (h : format.read source d = .ok r) {b : Bool} : d.StatesVerdict b ↔ b = r.trusted := by
  obtain ⟨row, hrow, made⟩ : ∃ row, fields.read source d = .ok row ∧
      TrustReport.mk row.1 row.2.1 = r := map_eq_ok_iff.mp h
  have verdict : row.1 = r.trusted := congrArg trusted made
  cases d with
  | object members =>
    obtain ⟨⟨key, d, given, answers⟩, only⟩ := Fields.first_of_read_object rfl hrow
    have named : "trusted" = key := by simpa [Field.answers, Field.required] using answers
    have stated : d = .bool r.trusted := by
      rw [← verdict]
      exact read_bool_eq_ok_iff.mp (only key d given answers)
    subst named stated
    constructor
    · intro given'
      have read := read_bool_eq_ok_iff.mp (only _ _ given' answers)
      rw [verdict] at read
      cases read
      rfl
    · rintro rfl
      exact given
  | list items =>
    obtain ⟨d, first, read⟩ := Fields.first_of_read_list rfl hrow
    obtain rfl : d = .bool row.1 := read_bool_eq_ok_iff.mp read
    simp [Doc.StatesVerdict, first, verdict, eq_comm]
  | _ => cases hrow

end TrustReport

/-! ## Histories -/

/-- One thing that is done to a report. -/
inductive ReportStep where
  | add (result : RuleResult)
  | addAll (results : List RuleResult)
  /-- Takes the report that a document holds, if it holds one. -/
  | replace (source : Source) (document : Doc)

namespace TrustReport

def apply (r : TrustReport) : ReportStep → TrustReport
  | .add x => r.addResult x
  | .addAll xs => r.addResults xs
  | .replace source d =>
    match format.read source d with
    | .ok r' => r'
    | .error _ => r

/-- The report after some steps. -/
def after (steps : List ReportStep) : TrustReport := steps.foldl apply empty

theorem after_concat (steps : List ReportStep) (step : ReportStep) :
    after (steps ++ [step]) = (after steps).apply step := by
  simp [after]

/-- A step keeps the verdict accurate, unless it takes a report that is not. -/
theorem Accurate.apply {r : TrustReport} (h : r.Accurate) {step : ReportStep}
    (read : ∀ source d r', step = .replace source d → format.read source d = .ok r' → r'.Accurate) :
    (r.apply step).Accurate := by
  cases step with
  | add x => exact h.addResult x
  | addAll xs => exact h.addResults xs
  | replace source d =>
    cases taken : format.read source d with
    | ok r' => simpa [TrustReport.apply, taken] using read source d r' rfl taken
    | error _ => simpa [TrustReport.apply, taken] using h

/-- The report is accurate throughout exactly if all reports that are read are. -/
theorem accurate_prefixes_iff {steps : List ReportStep} :
    (∀ before, before <+: steps → (after before).Accurate) ↔
      ∀ source d r, ReportStep.replace source d ∈ steps → format.read source d = .ok r →
        r.Accurate := by
  constructor
  · intro throughout source d r hstep read
    obtain ⟨before, later, rfl⟩ := List.append_of_mem hstep
    have here := throughout (before ++ [.replace source d]) (by simp)
    rw [after_concat] at here
    simpa [TrustReport.apply, read] using here
  · intro read
    induction steps using List.reverseRecOn with
    | nil =>
      intro before none
      obtain rfl := List.prefix_nil.mp none
      exact accurate_empty
    | append_singleton steps step ih =>
      have throughout := ih fun source d r hstep =>
        read source d r (List.mem_append_left _ hstep)
      intro before upTo
      rcases List.prefix_concat_iff.mp upTo with rfl | earlier
      · rw [after_concat]
        refine (throughout steps List.prefix_rfl).apply ?_
        rintro source d r rfl
        exact read source d r (by simp)
      · exact throughout before earlier

/-- The verdict of a report can be relied on at every point of its history exactly if all
documents that are taken state the verdicts of their results. That of a result always can, however
the result came about. -/
theorem accurate_throughout_iff (steps : List ReportStep) :
    ((∀ before, before <+: steps → (after before).Accurate) ↔
      ∀ source d r, ReportStep.replace source d ∈ steps → format.read source d = .ok r →
        (d.StatesVerdict true ↔ r.results ≠ [] ∧ ∀ x ∈ r.results, x.faults = [])) ∧
    ∀ before, before <+: steps → ∀ x ∈ (after before).results,
      x.trusted = x.faults.isEmpty ∧ ∀ b, x.Carries b ↔ b = x.faults.isEmpty := by
  refine ⟨?_, fun _ _ x _ => ⟨x.trusted_eq, fun _ => RuleResult.carries_iff⟩⟩
  rw [accurate_prefixes_iff]
  refine forall₃_congr fun source d r => forall₂_congr fun _ read => ?_
  rw [statesVerdict_iff_of_read read, Accurate, eq_comm]

end TrustReport

namespace Sample

/-- A report with a fault, said to be trusted. -/
def misstated : Doc := .ofJson (.object
  [("trusted", .bool true), ("results", .list [.object
    [("rule", .object [("name", .text "r"), ("markers", .list [.text "OS"])]),
      ("faults", .list [.object
        [("name", .text "PcrValueMissing"), ("description", .text "x")]])]])])

/-- The report is taken, and a result without faults is added. -/
def misstatedSteps : List ReportStep :=
  [.replace .value misstated, .add (.clean (.ofRule "R" [.os]))]

/-- A verdict of trust with a fault beside it, which no further result takes back. -/
theorem trusted_with_fault : (TrustReport.after misstatedSteps).trusted = true ∧
    (TrustReport.after misstatedSteps).faults ≠ [] ∧
    ¬ (TrustReport.after misstatedSteps).Accurate := by
  have trusted : (TrustReport.after misstatedSteps).trusted = true := by decide +kernel
  have faulty : (TrustReport.after misstatedSteps).faults ≠ [] := by decide +kernel
  refine ⟨trusted, faulty, fun accurate => ?_⟩
  simp [accurate.trusted_eq_false_iff.mpr (.inl faulty)] at trusted

end Sample

end HostTrust
