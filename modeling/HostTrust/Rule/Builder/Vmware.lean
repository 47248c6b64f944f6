/-
HostTrust.Rule.Builder.Vmware — the rules for VMware hosts.

Which registers matter is fixed for each version of the TPM; what they must
hold is told by the first policy for each. A register without a policy is not
checked. One register carries the log of loaded modules. For the part OS the
log must be the expected one, up to modules that differ from host to host; for
the part HOST_UNIQUE it must have the expected events.
-/
import HostTrust.Rule.Builder

namespace HostTrust.RuleBuilder

variable [CertificateLibrary]

/-- The registers that one version of the TPM uses on VMware hosts. -/
structure PcrLayout where
  name : String
  bank : Bank
  platform : List (Fin 24)
  os : List (Fin 24)
  /-- The register with the log of loaded modules. -/
  moduleLog : Fin 24
  deriving DecidableEq, Repr

namespace PcrLayout

def tpm20 : PcrLayout where
  name := "VMwareTpm20"
  bank := .sha256
  platform := [⟨0, by decide⟩, ⟨17, by decide⟩, ⟨18, by decide⟩]
  os := [⟨20, by decide⟩, ⟨21, by decide⟩]
  moduleLog := ⟨19, by decide⟩

def tpm12 : PcrLayout where
  name := "VMwareTpm12"
  bank := .sha1
  platform := [⟨0, by decide⟩, ⟨17, by decide⟩, ⟨18, by decide⟩]
  os := [⟨18, by decide⟩, ⟨20, by decide⟩]
  moduleLog := ⟨19, by decide⟩

/-- The first policy of a flavor for a register of the layout's bank. -/
def policy? (l : PcrLayout) (f : Flavor) (index : Fin 24) : Option PcrPolicy :=
  f.policy? ⟨index, l.bank⟩

/-- The checks of registers for which the flavor has a policy. -/
def valueChecks (l : PcrLayout) (f : Flavor) (indices : List (Fin 24)) : List Check :=
  (indices.filterMap (l.policy? f)).map fun p => .pcrValue p.expectedValue

/-- The check of the module log, if the flavor has events for it. -/
def moduleLogChecks (l : PcrLayout) (f : Flavor) (check : PcrPolicy → EventLog → Check) :
    Except VerificationError (List Check) :=
  match l.policy? f l.moduleLog with
  | none => return []
  | some p => do
    p.validate
    return (p.expectedLog?.map (check p)).toList

end PcrLayout

/-- Tags of events that differ from host to host. -/
def hostSpecificTags : List String :=
  ["commandLine.", "componentName.imgdb.tgz", "componentName.onetime.tgz"]

/-- The tags to leave out of the module log. -/
def moduleLogExclusions (p : PcrPolicy) : NameSet :=
  .ofList (hostSpecificTags ++ (p.logEquals.map (·.excludeTags.toList)).getD [])

/-- VMware hosts, whose registers are fixed. -/
def vmware (l : PcrLayout) : RuleBuilder := ofChecks l.name false fun c part =>
  match part with
  | .platform => return l.valueChecks c.flavor l.platform
  | .os => do
    return l.valueChecks c.flavor l.os ++
      (← l.moduleLogChecks c.flavor fun p log => .equalEvents log (moduleLogExclusions p))
  | .hostUnique => l.moduleLogChecks c.flavor fun _ log => .includedEvents log
  | .software => throw (.unsupportedSoftware l.name)
  | .assetTag => assetTagChecks c l.bank

end HostTrust.RuleBuilder
