/-
HostTrust.Rule.Builder.Intel — the rules for Intel hosts with a TPM 2.0.

What registers hold is left to the policies of the flavor. Beside them, the
attestation key must be certified and software must be as measured.
-/
import HostTrust.Rule.Builder

namespace HostTrust.RuleBuilder

variable [CertificateLibrary]

/-- The checks of software. -/
def softwareChecks (c : RuleContext) : Except VerificationError (List Check) := do
  let metadata ← c.flavor.requireMetadata
  match c.flavor.software with
  | none => throw (.missingSoftware metadata.id)
  | some software =>
    let algorithm ← match metadata.description.digestAlgorithm with
      | some name => (Bank.parse name).mapError .measurement
      | none => pure MeasurementLog.defaultAlgorithm
    return [.measurementAlgorithm metadata.id algorithm,
      .cumulativeHash metadata.id software.cumulativeHash,
      .measurements metadata.id software.entries]

/-- Intel hosts with a TPM 2.0. -/
def intel : RuleBuilder := ofChecks "IntelTpm20" true fun c part =>
  match part with
  | .platform => return [.aikCertificate c.anchors.privacyCa c.time]
  | .os | .hostUnique => return []
  | .software => softwareChecks c
  | .assetTag => assetTagChecks c .sha256

end HostTrust.RuleBuilder
