/-
HostTrust.Check.Registers — what can be wrong with the registers of a host: a
value that is not the expected one, and an event log that does not lead to the
reported value.

The host must report register data at all; if it does not, this is the only
fault.
-/
import HostTrust.Fault
import HostTrust.Manifest

namespace HostTrust

/-- What a check has found on a host. -/
structure Findings where
  faults : List Fault
  mismatches : List EventMismatch
  deriving DecidableEq, Repr

def Findings.ofFaults (faults : List Fault) : Findings := ⟨faults, []⟩

namespace HostManifest

/-- What is found in the register data of a host, which must be reported. -/
def inspectPcrs (m : HostManifest) (inspect : PcrManifest → Findings) : Findings :=
  match m.reportedPcrs with
  | some pcrs => inspect pcrs
  | none => .ofFaults [.pcrManifestMissing]

end HostManifest

namespace PcrManifest

/-- The faults of the value that a register must hold. -/
def valueFaults (pcrs : PcrManifest) (expected : PcrValue) : List Fault :=
  match pcrs.value? expected.pcr with
  | none => [.pcrValueMissing expected.pcr.index.val expected.pcr.bank]
  | some actual =>
    if actual.agrees expected.value then [] else [.pcrValueMismatch expected actual]

/-- The faults of a log whose replay must lead to the value of its register. -/
def replayFaults (pcrs : PcrManifest) (pcr : Pcr) : List Fault :=
  let invalid := Fault.pcrEventLogInvalid pcr.index.val pcr.bank
  match pcrs.value? pcr with
  | none => [.pcrValueMissing pcr.index.val pcr.bank]
  | some actual =>
    match pcrs.log? pcr with
    | none => [.pcrEventLogMissing pcr.index.val pcr.bank]
    | some log =>
      match log.replay with
      | .ok replayed =>
        if actual.agrees replayed then [] else [invalid.withValues replayed actual.value]
      | .error _ => [invalid]

end PcrManifest

/-- The register that an asset tag is provisioned into. -/
def assetTagIndex : Fin 24 := 22

/-- The value of the asset tag register once the digest of a tag certificate is extended
into it. -/
def PcrValue.ofAssetTag (bank : Bank) (certificate : Bytes) : PcrValue :=
  ⟨⟨assetTagIndex, bank⟩, Hex.encode (bank.extend bank.initial (bank.digest certificate))⟩

end HostTrust
