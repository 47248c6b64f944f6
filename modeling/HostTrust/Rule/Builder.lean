/-
HostTrust.Rule.Builder — sources of rules.

A builder knows the rules that a part of the host must satisfy, for one kind of
host. The rules about asset tags are the same for all kinds, up to the bank of
the register.
-/
import HostTrust.Rule
import HostTrust.Rule.Context

namespace HostTrust

variable [CertificateLibrary]

/-- A source of rules. -/
structure RuleBuilder where
  name : String
  /-- Whether the policies of the flavor are rules too. -/
  usesPolicies : Bool
  rules : RuleContext → FlavorPart → Except VerificationError (List Rule)

namespace RuleBuilder

/-- A builder whose rules are checks, each about the part they are for. -/
def ofChecks (name : String) (usesPolicies : Bool)
    (checks : RuleContext → FlavorPart → Except VerificationError (List Check)) : RuleBuilder where
  name := name
  usesPolicies := usesPolicies
  rules c part := do return (← checks c part).map (·.rule [part])

/-! ## Asset tags -/

/-- The checks of an asset tag. Without a tag certificate only its absence is reported. -/
def assetTagChecks (c : RuleContext) (bank : Bank) : Except VerificationError (List Check) := do
  let certificate ← c.flavor.tagCertificate?.mapM fun text =>
    (Certificate.decode text CertificateUse.assetTag.role).mapError .certificate
  return .tagCertificate certificate c.anchors.assetTagCa c.time ::
    (certificate.map fun cert => Check.ofAssetTag bank cert.encoded).toList

end RuleBuilder

end HostTrust
