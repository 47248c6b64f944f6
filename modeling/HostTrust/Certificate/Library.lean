/-
HostTrust.Certificate.Library — the questions about certificates that are left
to a library of cryptography.

There are two: whether a certificate chains to one of a pool's, and whether a
signature is one of the certified key. The library has the whole certificate to
answer them, and it may give no answer at all, which ends the verification.
Which library it is, is left open: whatever uses it takes it as a parameter and
relies on none of its answers.

`CertificateLibrary.rsa` is the one that the program runs with. It knows RSA keys
alone.
-/
import HostTrust.Certificate.Pool

namespace HostTrust

/-- A library of cryptography. A failure comes with its reason. -/
class CertificateLibrary where
  /-- Whether a certificate chains to one of those that are trusted, whatever the time. -/
  chainsTo : (trusted : List Certificate) → Certificate → Except String Bool
  /-- Whether a signature over data, made with the 48 byte digest, is that of the certified key. -/
  verifies : Certificate → (data signature : Bytes) → Except String Bool

/-- The library for RSA keys. It looks at names, basic constraints and the use of keys, and at
the key of one issuer; certificates with other keys it does not trust. -/
@[reducible] def CertificateLibrary.rsa : CertificateLibrary where
  chainsTo trusted c := return (CertificatePool.mk trusted).trusts c
  verifies c data signature := return c.verifiesData data signature

variable [CertificateLibrary]

/-- Whether the certificate chains to one of the pool's. An empty pool makes nothing trusted, and
the library is not asked. -/
def CertificatePool.isTrusted (p : CertificatePool) (c : Certificate) :
    Except VerificationError Bool :=
  if p.isEmpty then return false
  else (CertificateLibrary.chainsTo p.certificates c).mapError .library

/-- Whether a signature over data is that of the certified key. -/
def Certificate.verifySignature (c : Certificate) (data signature : Bytes) :
    Except VerificationError Bool :=
  (CertificateLibrary.verifies c data signature).mapError .library

end HostTrust
