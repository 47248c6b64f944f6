/-
HostTrust.Rule.Registry — which builder is for which hosts, and all the rules
that a host must satisfy for a flavor.
-/
import HostTrust.Rule.Builder.Intel
import HostTrust.Rule.Builder.Vmware

namespace HostTrust

variable [CertificateLibrary]

/-- The builders for each vendor and version. -/
structure BuilderRegistry where
  builder? : Vendor → TpmVersion → Option RuleBuilder

namespace BuilderRegistry

def empty : BuilderRegistry := ⟨fun _ _ => none⟩

/-- Sets the builder for a vendor and a version. -/
def register (r : BuilderRegistry) (vendor : Vendor) (tpm : TpmVersion) (b : RuleBuilder) :
    BuilderRegistry :=
  ⟨fun v t => if v = vendor ∧ t = tpm then some b else r.builder? v t⟩

/-- The builders that are always known. -/
def standard : BuilderRegistry :=
  ((empty.register .intel .v20 .intel).register .vmware .v20 (.vmware .tpm20)).register
    .vmware .v12 (.vmware .tpm12)

def contains (r : BuilderRegistry) (vendor : Vendor) (tpm : TpmVersion) : Bool :=
  (r.builder? vendor tpm).isSome

/-- The builder for a vendor and a version, which must be registered. -/
def builder (r : BuilderRegistry) (vendor : Vendor) (tpm : TpmVersion) :
    Except VerificationError RuleBuilder :=
  match r.builder? vendor tpm with
  | some b => return b
  | none => throw (.noBuilder vendor tpm)

/-- The names of all pairs with a builder, in ascending order. -/
def keys (r : BuilderRegistry) : List String :=
  [Vendor.intel, .microsoft, .vmware].flatMap fun v =>
    ([TpmVersion.v12, .v20].filter (r.contains v)).map fun t => v.name ++ "/" ++ t.name

/-- The registry as text. -/
def display (r : BuilderRegistry) : String :=
  "BuilderRegistry \x7b builders: [" ++
    ", ".intercalate (r.keys.map fun k => "\"" ++ k ++ "\"") ++ "] \x7d"

end BuilderRegistry

/-! ## All rules of a flavor -/

/-- The check of the signature of the flavor. -/
def RuleContext.signatureCheck (c : RuleContext) : Check :=
  .flavorSignature (.ofFlavor c.signedFlavor c.anchors.flavorSigning c.anchors.flavorCa)

/-- The rules that a host must satisfy: those of the builder, those of the policies, and last
the signature of the flavor, unless it is left out. -/
def RuleContext.rules (c : RuleContext) (registry : BuilderRegistry) (skipSignature : Bool) :
    Except VerificationError (List Rule) := do
  let part ← c.flavor.part
  let builder ← registry.builder (← c.vendor) (← c.tpmVersion)
  let static ← builder.rules c part
  let derived ← if builder.usesPolicies then PcrPolicy.rules c.flavor.pcrs part else pure []
  let signature := if skipSignature then [] else [c.signatureCheck.rule [part]]
  return static ++ derived ++ signature

end HostTrust
