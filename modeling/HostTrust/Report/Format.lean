/-
HostTrust.Report.Format — how faults, results and reports are written as JSON.

The verdict of a result is written but not read: it follows from the faults.
-/
import HostTrust.Flavor.Format
import HostTrust.Report

namespace HostTrust

open Json

/-- The kind of a fault is written by its published name. -/
def FaultKind.format : Format FaultKind :=
  .via .text (fun s => (FaultKind.parse s).mapError fun e => .rejected e.message)
    FaultKind.fullName

def Fault.fields : Fields [FaultKind, String, Option Nat, Option Bank, Option String,
    Option String, List Event, List Event, List Measurement, List Measurement,
    List Measurement] :=
  .cons (.required "name" FaultKind.format) (.cons (.required "description" .text)
    (.cons (.optional "pcr_index" (.natural 8)) (.cons (.optional "pcr_bank" Bank.format)
      (.cons (.optional "expected_value" .text) (.cons (.optional "actual_value" .text)
        (.cons (.listIfAny "missing_entries" Event.format)
          (.cons (.listIfAny "unexpected_entries" Event.format)
            (.cons (.listIfAny "missing_measurements" Measurement.format)
              (.cons (.listIfAny "unexpected_measurements" Measurement.format)
                (.cons (.listIfAny "mismatch_measurements" Measurement.format) .nil))))))))))

def Fault.format : Format Fault :=
  Fault.fields.record
    (fun (a, b, c, d, e, f, g, h, i, j, k, _) => ⟨a, b, c, d, e, f, g, h, i, j, k⟩)
    fun x => (x.kind, x.description, x.pcrIndex, x.pcrBank, x.expectedValue, x.actualValue,
      x.missingEntries, x.unexpectedEntries, x.missingMeasurements, x.unexpectedMeasurements,
      x.mismatchedMeasurements, ())

def RuleInfo.fields : Fields [String, List FlavorPart, Option Json] :=
  .cons (.required "name" .text) (.cons (.required "markers" (.list FlavorPart.format))
    (.cons (.optional "expected" .any) .nil))

def RuleInfo.format : Format RuleInfo :=
  RuleInfo.fields.record (fun (a, b, c, _) => ⟨a, b, c⟩)
    fun i => (i.name, i.markers, i.expected, ())

/-- The parts of a result that are read. -/
def RuleResult.fields : Fields [RuleInfo, Option Uuid, List Fault, List EventMismatch] :=
  .cons (.required "rule" RuleInfo.format) (.cons (.optional "flavor_id" Uuid.format)
    (.cons (.listOrEmpty "faults" Fault.format)
      (.cons (.listOrEmpty "field_mismatches" EventMismatch.format) .nil)))

/-- The parts of a result that are written. -/
def RuleResult.writtenFields :
    Fields [RuleInfo, Option Uuid, Bool, List Fault, List EventMismatch] :=
  .cons (.required "rule" RuleInfo.format) (.cons (.optional "flavor_id" Uuid.format)
    (.cons (.required "trusted" .bool) (.cons (.required "faults" (.list Fault.format))
      (.cons (.listIfAny "field_mismatches" EventMismatch.format) .nil))))

def RuleResult.format : Format RuleResult where
  read source d := (fun (a, b, c, d, _) => .ofFaults a b c d) <$> RuleResult.fields.read source d
  write r :=
    .object (writtenFields.write (r.rule, r.flavorId, r.trusted, r.faults, r.mismatches, ()))

def TrustReport.fields : Fields [Bool, List RuleResult] :=
  .cons (.required "trusted" .bool) (.cons (.required "results" (.list RuleResult.format)) .nil)

def TrustReport.format : Format TrustReport :=
  TrustReport.fields.record (fun (a, b, _) => ⟨a, b⟩) fun r => (r.trusted, r.results, ())

end HostTrust
