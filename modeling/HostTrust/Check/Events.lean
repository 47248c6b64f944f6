/-
HostTrust.Check.Events — what can be wrong with the event log of a register:
events that are not expected, and expected events that are not there.

Logs are compared as sets of keys. Events with excluded tags are left out on
both sides. Events that are described differently are noted, and are no fault.
-/
import HostTrust.Check.Registers

namespace HostTrust

/-- A fault with these events, if there are any. -/
def Fault.ifAny (fault : Pcr → List Event → Fault) (pcr : Pcr) (events : List Event) :
    List Fault :=
  if events.isEmpty then [] else [fault pcr events]

/-- What a difference of event logs means for a host. -/
def EventLogDiff.findings (d : EventLogDiff) (pcr : Pcr) : Findings :=
  ⟨Fault.ifAny .unexpectedEvents pcr d.unexpected ++ Fault.ifAny .missingEvents pcr d.missing,
    d.mismatches⟩

namespace PcrManifest

/-- What is found in the log of a register, which must be reported. -/
def inspectLog (pcrs : PcrManifest) (pcr : Pcr) (inspect : EventLog → Findings) : Findings :=
  match pcrs.log? pcr with
  | some log => inspect log
  | none => .ofFaults [.pcrEventLogMissing pcr.index.val pcr.bank]

/-- What is found if the log must have the expected events and no others, not counting those
with excluded tags. -/
def equalEvents (pcrs : PcrManifest) (expected : EventLog) (exclude : NameSet) : Findings :=
  pcrs.inspectLog expected.pcr fun actual =>
    ((expected.withoutTags exclude).compare (actual.withoutTags exclude)).findings expected.pcr

/-- What is found if the log must have the expected events. -/
def includedEvents (pcrs : PcrManifest) (expected : EventLog) : Findings :=
  pcrs.inspectLog expected.pcr fun actual =>
    .ofFaults (Fault.ifAny .missingEvents expected.pcr
      (Event.without expected.events actual.events))

end PcrManifest

end HostTrust
