/-
HostTrust.Flavor — signed reference measurements.

A flavor describes one part of a host: what registers must hold, which events
must have been measured, which software must be installed, which asset tag the
host must carry. A register policy asks for equal events or for events to be
included, not for both.
-/
import HostTrust.EventLog
import HostTrust.Json.Basic
import HostTrust.VerificationError

namespace HostTrust

/-- Descriptive texts of a flavor. -/
structure FlavorDescription where
  flavorPart : Option String
  label : Option String
  source : Option String
  tpmVersion : Option String
  osName : Option String
  biosName : Option String
  digestAlgorithm : Option String
  deriving DecidableEq, Repr

def FlavorDescription.blank : FlavorDescription := ⟨none, none, none, none, none, none, none⟩

structure FlavorMeta where
  id : Uuid
  vendor : Option String
  description : FlavorDescription
  deriving DecidableEq, Repr

/-- The events a log must have, apart from those with some tags. -/
structure ExpectedEvents where
  events : List Event
  excludeTags : NameSet
  deriving DecidableEq, Repr

/-- What a flavor asks of one register. -/
structure PcrPolicy where
  pcr : Pcr
  measurement : String
  /-- Whether the register must hold the measurement. -/
  matchesValue : Bool
  logEquals : Option ExpectedEvents
  logIncludes : Option (List Event)
  deriving DecidableEq, Repr

namespace PcrPolicy

/-- The measurement as the value of the register. -/
def expectedValue (p : PcrPolicy) : PcrValue := ⟨p.pcr, p.measurement⟩

/-- The events as a log of the register, whichever of the two ways they are given. -/
def expectedLog? (p : PcrPolicy) : Option EventLog :=
  ((p.logEquals.map ExpectedEvents.events).or p.logIncludes).map fun events => ⟨p.pcr, events⟩

/-- A policy must not give events both ways. -/
def validate (p : PcrPolicy) : Except VerificationError Unit :=
  if p.logEquals.isSome ∧ p.logIncludes.isSome then throw (.conflictingPolicy p.pcr) else return ()

end PcrPolicy

/-- A certificate as PEM or as base 64 of its binary form. -/
structure TagCertificate where
  encoded : String
  deriving DecidableEq, Repr

structure AssetTag where
  tagCertificate : Option TagCertificate
  deriving DecidableEq, Repr

structure External where
  assetTag : Option AssetTag
  deriving DecidableEq, Repr

/-- What is expected at a path. -/
structure SoftwareMeasurement where
  kind : MeasuredKind
  value : String
  includes : Option String
  excludes : Option String
  deriving DecidableEq, Repr

/-- Expected software, by path, and the digest of it all. -/
structure Software where
  measurements : NameMap SoftwareMeasurement
  cumulativeHash : String

namespace Software

/-- The expected entries, in the order of their paths. -/
def entries (s : Software) : List Measurement :=
  s.measurements.entries.map fun (path, m) => ⟨m.kind, path, m.value, m.includes, m.excludes⟩

end Software

/-- Reference measurements for a part of a host. -/
structure Flavor where
  metadata : Option FlavorMeta
  bios : Option Json
  hardware : Option Json
  pcrs : List PcrPolicy
  external : Option External
  software : Option Software

namespace Flavor

def requireMetadata (f : Flavor) : Except VerificationError FlavorMeta :=
  match f.metadata with
  | some m => return m
  | none => throw .missingMeta

def id? (f : Flavor) : Option Uuid := f.metadata.map FlavorMeta.id

/-- The part that the flavor declares. -/
def part (f : Flavor) : Except VerificationError FlavorPart := do
  let m ← f.requireMetadata
  match m.description.flavorPart with
  | some text => FlavorPart.parse text
  | none => throw (.undeclaredPart m.id)

/-- The encoded tag certificate, if the flavor has one. -/
def tagCertificate? (f : Flavor) : Option String := do
  return (← (← (← f.external).assetTag).tagCertificate).encoded

/-- The first policy for a register. -/
def policy? (f : Flavor) (pcr : Pcr) : Option PcrPolicy := f.pcrs.find? (·.pcr == pcr)

end Flavor

/-- A flavor and the signature over its written form. -/
structure SignedFlavor where
  flavor : Flavor
  signature : String

end HostTrust
