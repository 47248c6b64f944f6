/-
HostTrust.Fault — the closed set of reasons for which a host is not trusted.

A fault has a kind, a description for people, and the evidence: the register,
expected and actual values, and the events or measurements in question. Kinds
are published under a common namespace; a kind is read back with or without it.
-/
import HostTrust.EventLog
import HostTrust.VerificationError

namespace HostTrust

/-- The kinds of faults. -/
inductive FaultKind where
  | pcrManifestMissing
  | pcrValueMissing
  | pcrValueMismatch (bank : Bank)
  | pcrEventLogMissing
  | pcrEventLogContainsUnexpectedEntries
  | pcrEventLogMissingExpectedEntries
  | pcrEventLogInvalid
  | aikCertificateMissing
  | aikCertificateExpired
  | aikCertificateNotYetValid
  | aikCertificateNotTrusted
  | tagCertificateMissing
  | tagCertificateExpired
  | tagCertificateNotYetValid
  | tagCertificateNotTrusted
  | flavorSignatureMissing
  | flavorSignatureNotTrusted
  | flavorSignatureVerificationFailed
  | xmlMeasurementLogMissing
  | xmlMeasurementLogInvalid
  | xmlMeasurementLogContainsUnexpectedEntries
  | xmlMeasurementLogMissingExpectedEntries
  | xmlMeasurementValueMismatch
  | xmlMeasurementsDigestValueMismatch
  | allOfFlavorsMissing
  deriving DecidableEq, Repr

namespace FaultKind

/-- The kinds that say nothing about a bank. -/
def simpleKinds : List FaultKind :=
  [.pcrManifestMissing, .pcrValueMissing, .pcrEventLogMissing,
    .pcrEventLogContainsUnexpectedEntries, .pcrEventLogMissingExpectedEntries,
    .pcrEventLogInvalid, .aikCertificateMissing, .aikCertificateExpired,
    .aikCertificateNotYetValid, .aikCertificateNotTrusted, .tagCertificateMissing,
    .tagCertificateExpired, .tagCertificateNotYetValid, .tagCertificateNotTrusted,
    .flavorSignatureMissing, .flavorSignatureNotTrusted, .flavorSignatureVerificationFailed,
    .xmlMeasurementLogMissing, .xmlMeasurementLogInvalid,
    .xmlMeasurementLogContainsUnexpectedEntries, .xmlMeasurementLogMissingExpectedEntries,
    .xmlMeasurementValueMismatch, .xmlMeasurementsDigestValueMismatch, .allOfFlavorsMissing]

/-- The name without the namespace. -/
def shortName : FaultKind → String
  | .pcrManifestMissing => "PcrManifestMissing"
  | .pcrValueMissing => "PcrValueMissing"
  | .pcrValueMismatch bank => "PcrValueMismatch" ++ bank.name
  | .pcrEventLogMissing => "PcrEventLogMissing"
  | .pcrEventLogContainsUnexpectedEntries => "PcrEventLogContainsUnexpectedEntries"
  | .pcrEventLogMissingExpectedEntries => "PcrEventLogMissingExpectedEntries"
  | .pcrEventLogInvalid => "PcrEventLogInvalid"
  | .aikCertificateMissing => "AikCertificateMissing"
  | .aikCertificateExpired => "AikCertificateExpired"
  | .aikCertificateNotYetValid => "AikCertificateNotYetValid"
  | .aikCertificateNotTrusted => "AikCertificateNotTrusted"
  | .tagCertificateMissing => "TagCertificateMissing"
  | .tagCertificateExpired => "TagCertificateExpired"
  | .tagCertificateNotYetValid => "TagCertificateNotYetValid"
  | .tagCertificateNotTrusted => "TagCertificateNotTrusted"
  | .flavorSignatureMissing => "FlavorSignatureMissing"
  | .flavorSignatureNotTrusted => "FlavorSignatureNotTrusted"
  | .flavorSignatureVerificationFailed => "FlavorSignatureVerificationFailed"
  | .xmlMeasurementLogMissing => "XmlMeasurementLogMissing"
  | .xmlMeasurementLogInvalid => "XmlMeasurementLogInvalid"
  | .xmlMeasurementLogContainsUnexpectedEntries => "XmlMeasurementLogContainsUnexpectedEntries"
  | .xmlMeasurementLogMissingExpectedEntries => "XmlMeasurementLogMissingExpectedEntries"
  | .xmlMeasurementValueMismatch => "XmlMeasurementValueMismatch"
  | .xmlMeasurementsDigestValueMismatch => "XmlMeasurementsDigestValueMismatch"
  | .allOfFlavorsMissing => "AllOfFlavorsMissing"

/-- The namespace of published names. -/
def nameSpace : String := "com.intel.mtwilson.core.verifier.policy.fault."

/-- The published name. -/
def fullName (k : FaultKind) : String := nameSpace ++ k.shortName

/-- A list of characters without the characters in front of it, if it begins with them. -/
def after? (front : List Char) (cs : List Char) : Option (List Char) :=
  if front.isPrefixOf cs then some (cs.drop front.length) else none

/-- The kind that a text names, with or without the namespace; blanks around it do not
matter. The bank of a value mismatch is read as freely as banks are. -/
def ofName? (s : String) : Option FaultKind :=
  let cs := Text.trimChars s.toList
  let short := (after? nameSpace.toList cs).getD cs
  match after? "PcrValueMismatch".toList short with
  | some bank => (Bank.ofName? (String.ofList bank)).map .pcrValueMismatch
  | none => simpleKinds.find? (·.shortName == String.ofList short)

def parse (s : String) : Except VerificationError FaultKind :=
  match ofName? s with
  | some k => return k
  | none => throw (.unknownFault s)

end FaultKind

/-- One difference between a host and what is expected of it, with the evidence. -/
structure Fault where
  kind : FaultKind
  description : String
  pcrIndex : Option Nat
  pcrBank : Option Bank
  expectedValue : Option String
  actualValue : Option String
  missingEntries : List Event
  unexpectedEntries : List Event
  missingMeasurements : List Measurement
  unexpectedMeasurements : List Measurement
  mismatchedMeasurements : List Measurement
  deriving DecidableEq, Repr

namespace Fault

/-- A fault without evidence. -/
def plain (kind : FaultKind) (description : String) : Fault :=
  ⟨kind, description, none, none, none, none, [], [], [], [], []⟩

def withPcr (f : Fault) (index : Nat) (bank : Bank) : Fault :=
  { f with pcrIndex := some index, pcrBank := some bank }

/-- The fault as evidence about a register. -/
def about (f : Fault) (pcr : Pcr) : Fault := f.withPcr pcr.index.val pcr.bank

def withValues (f : Fault) (expected actual : String) : Fault :=
  { f with expectedValue := some expected, actualValue := some actual }

def pcrManifestMissing : Fault :=
  plain .pcrManifestMissing "Host report does not include a PCR manifest"

def pcrValueMissing (index : Nat) (bank : Bank) : Fault :=
  (plain .pcrValueMissing ("Host report does not include PCR " ++ toString index ++
    " in bank " ++ bank.name)).withPcr index bank

def pcrValueMismatch (expected actual : PcrValue) : Fault :=
  ((plain (.pcrValueMismatch expected.pcr.bank) ("Host PCR " ++ expected.pcr.display ++
    " with value '" ++ actual.value ++ "' does not match expected value '" ++ expected.value ++
    "'")).about expected.pcr).withValues expected.value actual.value

def pcrEventLogMissing (index : Nat) (bank : Bank) : Fault :=
  (plain .pcrEventLogMissing ("Host report does not include an event log for PCR " ++
    toString index ++ " in bank " ++ bank.name)).withPcr index bank

def pcrEventLogInvalid (index : Nat) (bank : Bank) : Fault :=
  (plain .pcrEventLogInvalid ("Event log for PCR " ++ toString index ++ " in bank " ++
    bank.name ++ " does not replay to the reported value")).withPcr index bank

def unexpectedEvents (pcr : Pcr) (events : List Event) : Fault :=
  { (plain .pcrEventLogContainsUnexpectedEntries ("Module manifest for " ++ pcr.display ++
      " contains " ++ toString events.length ++ " unexpected entries")).about pcr with
    unexpectedEntries := events }

def missingEvents (pcr : Pcr) (events : List Event) : Fault :=
  { (plain .pcrEventLogMissingExpectedEntries ("Module manifest for " ++ pcr.display ++
      " missing " ++ toString events.length ++ " expected entries")).about pcr with
    missingEntries := events }

end Fault

end HostTrust
