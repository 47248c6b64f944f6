/-
HostTrust.VerificationError — why a verification cannot be carried out.

A difference between a host and its flavors is never an error; it is a fault in
a result. Errors are flavors that cannot be turned into rules, certificates and
documents that cannot be read, times that no calendar names, and questions about
certificates that the library of cryptography does not answer.
-/
import HostTrust.Flavor.Platform
import HostTrust.MeasurementLog

namespace HostTrust

/-- Why a certificate or a bundle of certificates cannot be used. -/
inductive CertificateError where
  | unreadable (role : String)
  | notBase64 (role : String)
  | badBundle
  | unreadableFile (path reason : String)
  | noSigningCertificate
  deriving DecidableEq, Repr

def CertificateError.description : CertificateError → String
  | .unreadable role => "Failed to parse " ++ role ++ " certificate: " ++ withheld
  | .notBase64 role => "Failed to decode base64 " ++ role ++ " certificate: " ++ withheld
  | .badBundle => "Failed to parse PEM bundle: " ++ withheld
  | .unreadableFile path reason =>
    "Failed to read certificate file " ++ path ++ ": " ++ reason
  | .noSigningCertificate => "Flavor signing certificate file holds no certificate"

/-- Why a verification cannot be carried out. -/
inductive VerificationError where
  | flavorMisfit (misfit : Json.Misfit)
  | missingMeta
  | undeclaredPart (flavor : Uuid)
  | unsupportedTpm (text : String)
  | conflictingPolicy (pcr : Pcr)
  | missingSoftware (flavor : Uuid)
  | noFlavors
  | unknownPart (text : String)
  | unsupportedSoftware (builder : String)
  | unknownVendor (text : String)
  | unknownOs (osName : String)
  | noBuilder (vendor : Vendor) (tpm : TpmVersion)
  | certificate (e : CertificateError)
  | measurementLog (e : MeasurementLogError)
  | measurement (e : MeasurementError)
  | timeOutOfRange
  /-- The library of cryptography gives no answer. -/
  | library (reason : String)
  | unknownFault (text : String)
  deriving DecidableEq, Repr

/-- What an error is about. -/
inductive VerificationError.Kind where
  | flavor
  | flavorPart
  | vendor
  | certificate
  | xml
  | measurement (kind : MeasurementError.Kind)
  | internal
  deriving DecidableEq, Repr

namespace VerificationError

def kind : VerificationError → Kind
  | .flavorMisfit _ | .missingMeta | .undeclaredPart _ | .unsupportedTpm _
  | .conflictingPolicy _ | .missingSoftware _ | .noFlavors => .flavor
  | .unknownPart _ | .unsupportedSoftware _ => .flavorPart
  | .unknownVendor _ | .unknownOs _ | .noBuilder _ _ => .vendor
  | .certificate _ => .certificate
  | .measurementLog _ => .xml
  | .measurement e => .measurement e.kind
  | .timeOutOfRange | .library _ | .unknownFault _ => .internal

def description : VerificationError → String
  | .flavorMisfit misfit => "Failed to parse signed flavor: " ++ misfit.message
  | .missingMeta => "Flavor meta section is missing"
  | .undeclaredPart flavor => "Flavor " ++ flavor.display ++ " does not declare a flavor part"
  | .unsupportedTpm text => "Unsupported TPM version: '" ++ text ++ "'"
  | .conflictingPolicy pcr =>
    "PCR policy for " ++ pcr.display ++ " sets both eventlog_equals and eventlog_includes"
  | .missingSoftware flavor => "Software flavor " ++ flavor.display ++ " has no software section"
  | .noFlavors => "No flavors to verify against"
  | .unknownPart text => "Unknown flavor part: '" ++ text ++ "'"
  | .unsupportedSoftware builder => builder ++ " does not support SOFTWARE flavors"
  | .unknownVendor text => "Unknown vendor: '" ++ text ++ "'"
  | .unknownOs osName => "Cannot infer vendor from OS name '" ++ osName ++ "'"
  | .noBuilder vendor tpm =>
    "No rule builder for vendor " ++ vendor.name ++ " with TPM " ++ tpm.name
  | .certificate e => e.description
  | .measurementLog e => e.description
  | .measurement e => e.message
  | .timeOutOfRange => "OpenSSL failure: " ++ withheld
  | .library reason => "OpenSSL failure: " ++ reason
  | .unknownFault text => "Unknown fault name: '" ++ text ++ "'"

def message (e : VerificationError) : String :=
  (match e.kind with
    | .flavor => "Invalid flavor: "
    | .flavorPart => "Invalid flavor part: "
    | .vendor => "Unsupported vendor: "
    | .certificate => "Certificate error: "
    | .xml => "Measurement xml error: "
    | .measurement _ => ""
    | .internal => "Internal error: ") ++ e.description

end VerificationError

/-! ## Names that must be known -/

def FlavorPart.parse (s : String) : Except VerificationError FlavorPart :=
  match FlavorPart.ofText? s with
  | some p => return p
  | none => throw (.unknownPart s)

def Vendor.parse (s : String) : Except VerificationError Vendor :=
  match Vendor.ofText? s with
  | some v => return v
  | none => throw (.unknownVendor s)

def Vendor.ofOsName (s : String) : Except VerificationError Vendor :=
  match Vendor.ofOsName? s with
  | some v => return v
  | none => throw (.unknownOs s)

def TpmVersion.parse (s : String) : Except VerificationError TpmVersion :=
  match TpmVersion.ofText? s with
  | some v => return v
  | none => throw (.unsupportedTpm s)

end HostTrust
