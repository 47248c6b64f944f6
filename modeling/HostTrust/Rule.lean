/-
HostTrust.Rule — rules, and the rules that register policies ask for.

A rule is anything that judges a host, with a name and the parts of the host
that it is about. Each check is a rule.

A policy asks for up to three checks: of the value, of the events, and of the
replay of the log. The replay is checked once for each register whose events
are checked, directly after the first check of its events.
-/
import HostTrust.Check

namespace HostTrust

variable [CertificateLibrary]

/-- Anything that judges a host. -/
structure Rule where
  name : String
  /-- The parts of the host that the rule is about. -/
  markers : List FlavorPart
  judge : HostManifest → Except VerificationError RuleResult

namespace Check

/-- The result of a check with what it found. -/
def result (c : Check) (markers : List FlavorPart) (found : Findings) : RuleResult :=
  .ofFaults { RuleInfo.ofRule c.name markers with expected := c.expected } none found.faults
    found.mismatches

/-- The check as a rule. -/
def rule (c : Check) (markers : List FlavorPart) : Rule where
  name := c.name
  markers := markers
  judge m := c.result markers <$> c.findings m

end Check

/-! ## Policies -/

namespace PcrPolicy

/-- Whether the policy asks for events. -/
def asksForEvents (p : PcrPolicy) : Bool := p.logEquals.isSome || p.logIncludes.isSome

def valueChecks (p : PcrPolicy) : List Check :=
  if p.matchesValue then [.pcrValue p.expectedValue] else []

def eventChecks (p : PcrPolicy) : List Check :=
  (match p.logEquals with
    | some e => [Check.equalEvents ⟨p.pcr, e.events⟩ e.excludeTags]
    | none => []) ++
  (match p.logIncludes with
    | some events => [Check.includedEvents ⟨p.pcr, events⟩]
    | none => [])

/-- The check of the replay, unless it is among those of earlier policies. -/
def replayChecks (p : PcrPolicy) (checked : List Pcr) : List Check :=
  if p.asksForEvents && !checked.contains p.pcr then [.replay p.pcr] else []

/-- The checks of policies in order; the replay of registers in `checked` is checked already. -/
def checksAfter (checked : List Pcr) : List PcrPolicy → Except VerificationError (List Check)
  | [] => return []
  | p :: rest => do
    p.validate
    let checked' := if p.asksForEvents then p.pcr :: checked else checked
    return p.valueChecks ++ p.eventChecks ++ p.replayChecks checked ++
      (← checksAfter checked' rest)

/-- The checks that policies ask for. One policy in conflict with itself makes all unusable. -/
def checks (policies : List PcrPolicy) : Except VerificationError (List Check) :=
  checksAfter [] policies

/-- The rules that policies ask for. -/
def rules (policies : List PcrPolicy) (part : FlavorPart) :
    Except VerificationError (List Rule) := do
  return (← checks policies).map (·.rule [part])

end PcrPolicy

end HostTrust
