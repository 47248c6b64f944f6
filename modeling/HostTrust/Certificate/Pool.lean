/-
HostTrust.Certificate.Pool — sets of trusted certificates, and what they make
trusted as far as RSA keys go.

A certificate with an RSA key is trusted by a pool if it is one of the pool's, or
if one of the pool's is an authority that has signed it. Times of validity do not
matter here. The pool's first certificate with the right name is the issuer, and
none other is tried.
-/
import HostTrust.Certificate

namespace HostTrust

/-- Trusted certificates. -/
structure CertificatePool where
  certificates : List Certificate
  deriving DecidableEq, Repr

namespace CertificatePool

def empty : CertificatePool := ⟨[]⟩

def isEmpty (p : CertificatePool) : Bool := p.certificates.isEmpty

/-- The certificates of a text with PEM blocks. -/
def ofPem (s : String) : Except CertificateError CertificatePool :=
  match Certificate.bundle? s with
  | some cs => return ⟨cs⟩
  | none => throw .badBundle

/-- The certificates of a file with PEM blocks. Blocks are ASCII, so that each byte can be taken
for a character. -/
def ofPemBytes (bs : Bytes) : Except CertificateError CertificatePool :=
  ofPem (String.ofList (bs.map fun b => Char.ofNat b.toNat))

/-- Whether the pool holds the certificate itself. -/
def holds (p : CertificatePool) (c : Certificate) : Bool :=
  p.certificates.any (·.encoded == c.encoded)

/-- The first certificate of the pool that could be the issuer. -/
def issuer? (p : CertificatePool) (c : Certificate) : Option Certificate :=
  p.certificates.find? fun ca => ca.subject == c.issuer && ca.maySign

/-- Whether the pool makes a certificate with an RSA key trusted. -/
def trusts (p : CertificatePool) (c : Certificate) : Bool :=
  match p.issuer? c with
  | some ca => if c.isSelfIssued then p.holds c else ca.isAuthority && ca.hasSigned c
  | none => p.holds c

end CertificatePool

/-- The trusted certificates for each purpose. -/
structure TrustAnchors where
  privacyCa : CertificatePool
  flavorCa : CertificatePool
  flavorSigning : Option Certificate
  assetTagCa : CertificatePool
  deriving DecidableEq, Repr

/-- No certificate is trusted. -/
def TrustAnchors.none : TrustAnchors := ⟨.empty, .empty, Option.none, .empty⟩

end HostTrust
