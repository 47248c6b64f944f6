/-
HostTrust.Report — results of rules and the report over them.

A result names its rule and lists the faults the rule found. It carries its
verdict, which is kept up to date as faults are added: it is trusted as long as
there are none. A report lists results and carries its verdict too, which is
updated as results are added: an empty report is not trusted, and one untrusted
result is enough to make it untrusted.
-/
import HostTrust.Fault
import HostTrust.Json.Basic

namespace HostTrust

/-- The rule that gave a result. -/
structure RuleInfo where
  name : String
  markers : List FlavorPart
  expected : Option Json

namespace RuleInfo

/-- The namespace of published rule names. -/
def nameSpace : String := "com.intel.mtwilson.core.verifier.policy.rule."

/-- A rule without an expected value. -/
def ofRule (shortName : String) (markers : List FlavorPart) : RuleInfo :=
  ⟨nameSpace ++ shortName, markers, none⟩

end RuleInfo

/-- What a rule found on a host. -/
structure RuleResult where
  rule : RuleInfo
  flavorId : Option Uuid
  /-- The verdict. -/
  trusted : Bool
  faults : List Fault
  /-- Advisory; they do not affect trust. -/
  mismatches : List EventMismatch
  /-- The verdict is that of the faults. -/
  trusted_eq : trusted = faults.isEmpty

namespace RuleResult

/-- A rule that has found nothing. -/
def clean (rule : RuleInfo) : RuleResult := ⟨rule, none, true, [], [], rfl⟩

/-- A result with a verdict that follows from its faults. -/
def ofFaults (rule : RuleInfo) (flavorId : Option Uuid) (faults : List Fault)
    (mismatches : List EventMismatch) : RuleResult :=
  ⟨rule, flavorId, faults.isEmpty, faults, mismatches, rfl⟩

def addFault (r : RuleResult) (f : Fault) : RuleResult :=
  { r with trusted := false, faults := r.faults ++ [f], trusted_eq := by simp }

def withFlavorId (r : RuleResult) (id : Option Uuid) : RuleResult := { r with flavorId := id }

def withMismatches (r : RuleResult) (mismatches : List EventMismatch) : RuleResult :=
  { r with mismatches }

end RuleResult

/-- The verdict over all rules that were applied to a host. -/
structure TrustReport where
  trusted : Bool
  results : List RuleResult

namespace TrustReport

/-- A report without results is not trusted. -/
def empty : TrustReport := ⟨false, []⟩

def addResult (r : TrustReport) (result : RuleResult) : TrustReport :=
  ⟨(r.trusted || r.results.isEmpty) && result.trusted, r.results ++ [result]⟩

def addResults (r : TrustReport) (results : List RuleResult) : TrustReport :=
  results.foldl addResult r

/-- The faults of all results. -/
def faults (r : TrustReport) : List Fault := r.results.flatMap RuleResult.faults

end TrustReport

end HostTrust
