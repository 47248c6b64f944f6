/-
HostTrust.Verifier — whether a host is trusted.

A host is verified against a flavor by all rules of the flavor, and against
several flavors by those of each in turn. Against several, each part of the
host for which a flavor is not satisfied is reported once, at the end.
-/
import HostTrust.Rule.Registry

namespace HostTrust

variable [CertificateLibrary]

/-- What verification is done with. -/
structure TrustVerifier where
  anchors : TrustAnchors
  registry : BuilderRegistry
  /-- Whether the signatures of flavors are not checked. -/
  skipSignature : Bool

namespace TrustVerifier

/-- A verifier with the standard builders that checks signatures. -/
def ofAnchors (anchors : TrustAnchors) : TrustVerifier := ⟨anchors, .standard, false⟩

/-- The results of the rules of a flavor. -/
def results (v : TrustVerifier) (m : HostManifest) (time : Int) (f : SignedFlavor) :
    Except VerificationError (List RuleResult) := do
  let rules ← RuleContext.rules ⟨f, m, v.anchors, time⟩ v.registry v.skipSignature
  rules.mapM fun r => (·.withFlavorId f.flavor.id?) <$> r.judge m

/-- Verifies a host against one flavor at a moment. -/
def verifyFlavorAt (v : TrustVerifier) (m : HostManifest) (f : SignedFlavor) (time : Int) :
    Except VerificationError TrustReport := do
  return TrustReport.empty.addResults (← v.results m time f)

/-- The result that tells that not all flavors for a part are satisfied. -/
def missingPart (part : FlavorPart) : RuleResult :=
  (RuleResult.clean (.ofRule "AllOfFlavors" [part])).addFault
    (.plain .allOfFlavorsMissing ("All of flavor types missing: " ++ part.name))

/-- The parts with a flavor that is not satisfied. -/
def missingParts (outcomes : List (FlavorPart × List RuleResult)) : List FlavorPart :=
  FlavorPart.all.filter fun p =>
    outcomes.any fun o => o.1 == p && o.2.any fun r => !r.trusted

/-- Verifies a host against all of some flavors at a moment. -/
def verifyAllOfAt (v : TrustVerifier) (m : HostManifest) (flavors : List SignedFlavor)
    (time : Int) : Except VerificationError TrustReport := do
  if flavors.isEmpty then throw .noFlavors
  let outcomes ← flavors.mapM fun f => do return (← f.flavor.part, ← v.results m time f)
  return (TrustReport.empty.addResults (outcomes.flatMap Prod.snd)).addResults
    ((missingParts outcomes).map missingPart)

end TrustVerifier

end HostTrust
