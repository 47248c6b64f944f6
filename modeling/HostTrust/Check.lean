/-
HostTrust.Check — the things that can be checked on a host.

A check holds all that it needs beside the report of the host, and finds the
same on the same host. An error means that the check itself or the report of
the host cannot be used, or that the library gives no answer.
-/
import HostTrust.Check.Events
import HostTrust.Check.Software
import HostTrust.Check.Trust
import HostTrust.Report.Format

namespace HostTrust

variable [CertificateLibrary]

/-- One thing to check on a host. -/
inductive Check where
  /-- A register holds a value. -/
  | pcrValue (expected : PcrValue)
  /-- The log of a register has the same events, apart from those with excluded tags. -/
  | equalEvents (expected : EventLog) (exclude : NameSet)
  /-- The log of a register has these events. -/
  | includedEvents (expected : EventLog)
  /-- The log of a register leads to its value. -/
  | replay (pcr : Pcr)
  /-- The asset tag register holds the value of a tag certificate. -/
  | assetTag (expected : PcrValue)
  /-- The attestation key certificate of the host is trusted and valid. -/
  | aikCertificate (authorities : CertificatePool) (time : Int)
  /-- The tag certificate of the flavor is trusted and valid. -/
  | tagCertificate (certificate : Option Certificate) (authorities : CertificatePool) (time : Int)
  /-- The flavor is signed. -/
  | flavorSignature (signature : FlavorSignature)
  /-- The measurement document uses an algorithm. -/
  | measurementAlgorithm (flavor : Uuid) (algorithm : Bank)
  /-- The measurement document leads to the digest that it states, and to the expected one. -/
  | cumulativeHash (flavor : Uuid) (expected : String)
  /-- The measurement document has the expected entries. -/
  | measurements (flavor : Uuid) (expected : List Measurement)
  deriving DecidableEq, Repr

namespace Check

/-- The check of the asset tag register for a tag certificate. -/
def ofAssetTag (bank : Bank) (certificate : Bytes) : Check :=
  .assetTag (.ofAssetTag bank certificate)

def name : Check → String
  | .pcrValue _ => "PcrMatchesConstant"
  | .equalEvents _ exclude =>
    if exclude.isEmpty then "PcrEventLogEquals" else "PcrEventLogEqualsExcluding"
  | .includedEvents _ => "PcrEventLogIncludes"
  | .replay _ => "PcrEventLogIntegrity"
  | .assetTag _ => "AssetTagMatches"
  | .aikCertificate _ _ => "AikCertificateTrusted"
  | .tagCertificate _ _ _ => "TagCertificateTrusted"
  | .flavorSignature _ => "FlavorTrusted"
  | .measurementAlgorithm _ _ => "XmlMeasurementLogDigestEquals"
  | .cumulativeHash _ _ => "XmlMeasurementLogIntegrity"
  | .measurements _ _ => "XmlMeasurementLogEquals"

/-- What the check expects, as reports show it. -/
def expected : Check → Option Json
  | .pcrValue v | .assetTag v => some (PcrValue.format.write v)
  | .equalEvents log _ | .includedEvents log => some (EventLog.format.write log)
  | .replay pcr => some (Pcr.format.write pcr)
  | .aikCertificate _ _ | .tagCertificate _ _ _ | .flavorSignature _ => none
  | .measurementAlgorithm flavor bank => some (.object
      [("flavor_id", Uuid.format.write flavor), ("digest_algorithm", Bank.format.write bank)])
  | .cumulativeHash flavor hash => some (.object
      [("flavor_id", Uuid.format.write flavor), ("cumulative_hash", .text hash)])
  | .measurements _ ms => some (.list (ms.map Measurement.format.write))

/-- What the check finds on a host. -/
def findings (c : Check) (m : HostManifest) : Except VerificationError Findings :=
  match c with
  | .pcrValue v | .assetTag v => return m.inspectPcrs fun pcrs => .ofFaults (pcrs.valueFaults v)
  | .equalEvents log exclude => return m.inspectPcrs fun pcrs => pcrs.equalEvents log exclude
  | .includedEvents log => return m.inspectPcrs fun pcrs => pcrs.includedEvents log
  | .replay pcr => return m.inspectPcrs fun pcrs => .ofFaults (pcrs.replayFaults pcr)
  | .aikCertificate authorities time => .ofFaults <$> m.aikFaults authorities time
  | .tagCertificate c authorities time => .ofFaults <$> Certificate.tagFaults c authorities time
  | .flavorSignature s => .ofFaults <$> s.faults
  | .measurementAlgorithm flavor bank =>
    .ofFaults <$> m.inspectLog flavor fun log => log.algorithmFaults bank
  | .cumulativeHash flavor hash =>
    .ofFaults <$> m.inspectLog flavor fun log => return log.cumulativeFaults flavor hash
  | .measurements flavor ms =>
    .ofFaults <$> m.inspectLog flavor fun log =>
      return Measurement.faults flavor ms log.measurements

end Check

end HostTrust
