/-
HostTrust.Check.Software — what can be wrong with the software measurements of
a host: the digest algorithm, the cumulative digest, and the measured paths.

The host must report a measurement document about the flavor; if it does not,
this is the only fault. A report with a text that is no such document is an
error. Of several entries for a path, the last one counts.
-/
import HostTrust.Fault
import HostTrust.Manifest
import HostTrust.Sorted.Names

namespace HostTrust

/-- The faults in the measurement document about a flavor, which must be reported. -/
def HostManifest.inspectLog (m : HostManifest) (flavor : Uuid)
    (inspect : MeasurementLog → Except VerificationError (List Fault)) :
    Except VerificationError (List Fault) := do
  match ← (MeasurementLog.findFor flavor m.measurementXmls).mapError .measurementLog with
  | some log => inspect log
  | none => return [.plain .xmlMeasurementLogMissing
      ("Host report does not include a measurement log for flavor " ++ flavor.display)]

namespace MeasurementLog

/-- The fault of a document that does not use the expected algorithm. -/
def algorithmFaults (log : MeasurementLog) (expected : Bank) :
    Except VerificationError (List Fault) := do
  let actual ← log.algorithm.mapError .measurement
  if actual = expected then return []
  return [(Fault.plain .xmlMeasurementsDigestValueMismatch
    ("Measurement log uses " ++ actual.name ++ " instead of " ++ expected.name)).withValues
    expected.name actual.name]

/-- The fault of a document whose replay is not both what it states and what is expected. -/
def cumulativeFaults (log : MeasurementLog) (flavor : Uuid) (expected : String) : List Fault :=
  match log.replay with
  | .error _ => [.plain .xmlMeasurementLogInvalid
      ("Measurement log of flavor " ++ flavor.display ++ " cannot be replayed")]
  | .ok replayed =>
    if Text.sameIgnoringCase replayed (log.cumulativeHash.getD "") &&
        Text.sameIgnoringCase replayed (Text.trim expected) then []
    else [(Fault.plain .xmlMeasurementLogInvalid
      ("Cumulative hash of the measurement log for flavor " ++ flavor.display ++
        " does not verify")).withValues expected replayed]

end MeasurementLog

namespace Measurement

/-- The entries by path, of which the last one of a path counts. -/
def byPath (ms : List Measurement) : NameMap Measurement :=
  .ofList (ms.map fun m => (m.path, m))

/-- Whether two entries for a path say the same. -/
def agrees (m n : Measurement) : Bool :=
  m.kind == n.kind && Text.sameIgnoringCase m.value n.value

/-- The entries for paths that the other map lacks. -/
def lacking (ms others : NameMap Measurement) : List Measurement :=
  (ms.entries.filter fun e => !others.contains e.1).map Prod.snd

/-- The actual entries that do not agree with the expected ones for their paths. -/
def disagreeing (expected actual : NameMap Measurement) : List Measurement :=
  expected.entries.filterMap fun (path, e) =>
    (actual.get? path).filter fun a => !a.agrees e

/-- The faults of actual entries. -/
def faults (flavor : Uuid) (expected actual : List Measurement) : List Fault :=
  let expected := byPath expected
  let actual := byPath actual
  let log := "Measurement log for flavor " ++ flavor.display
  let unexpected := lacking actual expected
  let missing := lacking expected actual
  let mismatched := disagreeing expected actual
  (if unexpected.isEmpty then [] else
    [{ Fault.plain .xmlMeasurementLogContainsUnexpectedEntries
        (log ++ " contains " ++ toString unexpected.length ++ " unexpected entries") with
      unexpectedMeasurements := unexpected }]) ++
  (if missing.isEmpty then [] else
    [{ Fault.plain .xmlMeasurementLogMissingExpectedEntries
        (log ++ " missing " ++ toString missing.length ++ " expected entries") with
      missingMeasurements := missing }]) ++
  (if mismatched.isEmpty then [] else
    [{ Fault.plain .xmlMeasurementValueMismatch
        (log ++ " has " ++ toString mismatched.length ++ " mismatched entries") with
      mismatchedMeasurements := mismatched }])

end Measurement

end HostTrust
