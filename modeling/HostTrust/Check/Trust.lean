/-
HostTrust.Check.Trust — what can be wrong with certificates and signatures.

A certificate must be trusted by a pool, and valid at the time of verification;
the two are checked independently. A flavor must be signed, the configured
signing certificate must be trusted by the flavor authorities, and the
signature must be over the written form of the flavor. Trust and signatures are
questions to the library, and without its answer there are no faults to tell.
-/
import HostTrust.Certificate.Library
import HostTrust.Check.Registers
import HostTrust.Flavor.Format

namespace HostTrust

variable [CertificateLibrary]

/-- What a checked certificate is for. -/
inductive CertificateUse where
  | aik
  | assetTag
  deriving DecidableEq, Repr

namespace CertificateUse

/-- The use as faults name it. -/
def label : CertificateUse → String
  | .aik => "AIK"
  | .assetTag => "Asset tag"

/-- The use as errors name it. -/
def role : CertificateUse → String
  | .aik => "AIK"
  | .assetTag => "asset tag"

def missing : CertificateUse → Fault
  | .aik => .plain .aikCertificateMissing "Host report does not include an AIK certificate"
  | .assetTag => .plain .tagCertificateMissing "Asset tag flavor has no tag certificate"

def notTrusted (use : CertificateUse) : Fault :=
  .plain (match use with
    | .aik => .aikCertificateNotTrusted
    | .assetTag => .tagCertificateNotTrusted)
    (use.label ++ " certificate is not signed by a trusted authority")

def expired (use : CertificateUse) (moment : CalendarTime) : Fault :=
  .plain (match use with
    | .aik => .aikCertificateExpired
    | .assetTag => .tagCertificateExpired)
    (use.label ++ " certificate expired on " ++ moment.display)

def notYetValid (use : CertificateUse) (moment : CalendarTime) : Fault :=
  .plain (match use with
    | .aik => .aikCertificateNotYetValid
    | .assetTag => .tagCertificateNotYetValid)
    (use.label ++ " certificate is not valid before " ++ moment.display)

end CertificateUse

namespace Certificate

/-- The fault of a certificate that no trusted certificate has signed. -/
def trustFaults (c : Certificate) (use : CertificateUse) (authorities : CertificatePool) :
    Except VerificationError (List Fault) := do
  return if ← authorities.isTrusted c then [] else [use.notTrusted]

/-- The fault of a certificate with a validity. -/
def validityFaults (c : Certificate) (use : CertificateUse) : Validity → List Fault
  | .valid => []
  | .expired => [use.expired c.notAfter]
  | .notYetValid => [use.notYetValid c.notBefore]

/-- The faults of a certificate at a moment. -/
def faultsAt (c : Certificate) (use : CertificateUse) (authorities : CertificatePool)
    (time : Int) : Except VerificationError (List Fault) := do
  return (← c.trustFaults use authorities) ++ c.validityFaults use (← c.validityAt time)

end Certificate

/-- The certificate that a host presents for its attestation key; a blank one is none. -/
def HostManifest.aikText? (m : HostManifest) : Option String :=
  m.aikCertificate.bind Text.trimmed?

/-- The faults of the attestation key certificate of a host. -/
def HostManifest.aikFaults (m : HostManifest) (authorities : CertificatePool) (time : Int) :
    Except VerificationError (List Fault) := do
  match m.aikText? with
  | none => return [CertificateUse.aik.missing]
  | some text =>
    let c ← (Certificate.decode text CertificateUse.aik.role).mapError .certificate
    c.faultsAt .aik authorities time

/-- The faults of the tag certificate of a flavor. -/
def Certificate.tagFaults (c : Option Certificate) (authorities : CertificatePool) (time : Int) :
    Except VerificationError (List Fault) :=
  match c with
  | none => return [CertificateUse.assetTag.missing]
  | some c => c.faultsAt .assetTag authorities time

/-- The signature of a flavor, and what decides whether it is believed. -/
structure FlavorSignature where
  content : Bytes
  /-- The signature in base 64, without blanks around it. -/
  signature : String
  signer : Option Certificate
  authorities : CertificatePool
  deriving DecidableEq, Repr

namespace FlavorSignature

/-- The signature of a flavor with the trusted certificates. -/
def ofFlavor (f : SignedFlavor) (signer : Option Certificate) (authorities : CertificatePool) :
    FlavorSignature :=
  ⟨f.signingBytes, Text.trim f.signature, signer, authorities⟩

/-- Whether the signature is one of the signer over the content. -/
def isBy (s : FlavorSignature) (signer : Certificate) : Except VerificationError Bool :=
  match Base64.decode s.signature with
  | some bytes => signer.verifySignature s.content bytes
  | none => return false

/-- What is wrong with a signature that should be one of the signer. The signature is only looked
at if the signer is trusted. -/
def faultsOf (s : FlavorSignature) (signer : Certificate) :
    Except VerificationError (List Fault) := do
  if ← s.authorities.isTrusted signer then
    return if ← s.isBy signer then []
      else [.plain .flavorSignatureVerificationFailed "Flavor signature does not match its content"]
  else
    return [.plain .flavorSignatureNotTrusted
      "Flavor signing certificate is not issued by a trusted flavor CA"]

/-- The first thing that is wrong with the signature. -/
def faults (s : FlavorSignature) : Except VerificationError (List Fault) :=
  if s.signature = "" then return [.plain .flavorSignatureMissing "Flavor is not signed"]
  else
    match s.signer with
    | none => return [.plain .flavorSignatureMissing "No flavor signing certificate is configured"]
    | some signer => s.faultsOf signer

end FlavorSignature

end HostTrust
