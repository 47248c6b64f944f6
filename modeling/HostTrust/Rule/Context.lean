/-
HostTrust.Rule.Context — what the rules for a flavor depend on: the flavor, the
host, the trusted certificates and the moment.

A flavor may declare the vendor and the version of the TPM that it is for. If it
does not, both are told by the host.
-/
import HostTrust.Certificate.Pool
import HostTrust.Flavor
import HostTrust.Manifest

namespace HostTrust

/-- What the rules of a flavor depend on. -/
structure RuleContext where
  signedFlavor : SignedFlavor
  manifest : HostManifest
  anchors : TrustAnchors
  /-- The moment at which certificates must be valid, in seconds since 1970. -/
  time : Int

namespace RuleContext

def flavor (c : RuleContext) : Flavor := c.signedFlavor.flavor

/-- A text without the blanks around it, unless it is blank. -/
def declared (text : Option String) : Option String := text.bind Text.trimmed?

/-- The vendor that the flavor declares, or else the one that the host's system tells. -/
def vendor (c : RuleContext) : Except VerificationError Vendor := do
  let metadata ← c.flavor.requireMetadata
  match declared metadata.vendor with
  | some text => Vendor.parse text
  | none => Vendor.ofOsName c.manifest.hostInfo.osName

/-- The version of the TPM that the flavor declares, or else the one that the host reports. -/
def tpmVersion (c : RuleContext) : Except VerificationError TpmVersion := do
  let metadata ← c.flavor.requireMetadata
  match declared metadata.description.tpmVersion with
  | some text => TpmVersion.parse text
  | none => TpmVersion.parse c.manifest.hostInfo.tpmVersion

end RuleContext

end HostTrust
