/-
HostTrust.EventLog — measured events and the event log of one register.

Two events are the same measurement if their keys agree: measurement and type,
without the blanks around them and in small letters. Logs are compared as sets
of keys; names and tags of events are descriptive, and a difference in them is
only noted.
-/
import HostTrust.Pcr
import HostTrust.Sorted.Names

namespace HostTrust

/-- One measured event. -/
structure Event where
  typeId : String
  typeName : String
  tags : NameSet
  measurement : String
  deriving DecidableEq, Repr

namespace Event

/-- What identifies an event: its measurement and its type. -/
def key (e : Event) : String × String :=
  (Text.lower (Text.trim e.measurement), Text.lower (Text.trim e.typeId))

/-- Whether the event carries one of the tags. -/
def hasAnyTag (e : Event) (tags : NameSet) : Bool := e.tags.meets tags

/-- Whether two events with one key are described alike. -/
def describedAlike (e f : Event) : Bool := e.typeName == f.typeName && e.tags == f.tags

end Event

/-- Two events with one key that are described differently. -/
structure EventMismatch where
  expected : Event
  actual : Event
  deriving DecidableEq, Repr

/-- The events that extended one register, in order. -/
structure EventLog where
  pcr : Pcr
  events : List Event
  deriving DecidableEq, Repr

/-- How an actual log differs from the expected one. -/
structure EventLogDiff where
  /-- Expected events whose key is not in the actual log. -/
  missing : List Event
  /-- Actual events whose key is not in the expected log. -/
  unexpected : List Event
  /-- Events in both logs that are described differently. -/
  mismatches : List EventMismatch
  deriving DecidableEq, Repr

/-- Whether the logs have the same keys. -/
def EventLogDiff.isEmpty (d : EventLogDiff) : Bool := d.missing.isEmpty && d.unexpected.isEmpty

/-- The events whose key is that of no event of `others`. -/
def Event.without (events others : List Event) : List Event :=
  let keys := others.map Event.key
  events.filter fun e => !keys.contains e.key

/-- Each expected event with the first actual one of its key, if they are described
differently. -/
def Event.mismatches (expected actual : List Event) : List EventMismatch :=
  let keyed := actual.map fun e => (e.key, e)
  expected.filterMap fun e =>
    match keyed.lookup e.key with
    | some a => if e.describedAlike a then none else some ⟨e, a⟩
    | none => none

namespace EventLog

/-- The value that the register holds after the events of the log. -/
def replay (log : EventLog) : Except ReplayFailure String :=
  log.pcr.bank.replay (log.events.map Event.measurement)

/-- The log without the events that carry one of the tags. -/
def withoutTags (log : EventLog) (tags : NameSet) : EventLog :=
  if tags.isEmpty then log
  else { log with events := log.events.filter fun e => !e.hasAnyTag tags }

/-- Only logs of one register can be compared. -/
def ensureSamePcr (log other : EventLog) : Except MeasurementError Unit :=
  if log.pcr = other.pcr then return () else throw (.differentPcrs log.pcr other.pcr)

/-- The events of a log whose key the other log lacks. -/
def subtract (log other : EventLog) : Except MeasurementError EventLog := do
  log.ensureSamePcr other
  return { log with events := Event.without log.events other.events }

/-- How an actual log of the same register differs from the log, as the expected one. -/
def compare (log actual : EventLog) : EventLogDiff :=
  ⟨Event.without log.events actual.events, Event.without actual.events log.events,
    Event.mismatches log.events actual.events⟩

/-- Compares the log, as the expected one, with an actual log. -/
def diff (log actual : EventLog) : Except MeasurementError EventLogDiff := do
  actual.ensureSamePcr log
  return log.compare actual

end EventLog

end HostTrust
