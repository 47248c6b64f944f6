/-
HostTrust.Certificate — certificates: who certifies which key to whom, and when.

A certificate is read from its binary form, or from text: a PEM block or base
64 with blanks anywhere. What follows the binary form is not part of it.
Validity is checked at a moment, given in seconds since 1970; both bounds
belong to the time in which a certificate is valid.
-/
import HostTrust.Certificate.CalendarTime
import HostTrust.Certificate.Der
import HostTrust.Certificate.Pem
import HostTrust.Certificate.Rsa
import HostTrust.VerificationError

namespace HostTrust

/-- One attribute of a name: what it is, and its text as names are compared. -/
structure NameAttribute where
  kind : Bytes
  text : Bytes
  deriving DecidableEq, Repr

/-- A certificate. -/
structure Certificate where
  /-- The certificate as it is written. -/
  encoded : Bytes
  /-- The part that is signed. -/
  signedPart : Bytes
  /-- Whether it has the first version of the form, which knows no extensions. -/
  isVersion1 : Bool
  issuer : List (List NameAttribute)
  subject : List (List NameAttribute)
  notBefore : CalendarTime
  notAfter : CalendarTime
  /-- The certified key, if it is one that is understood. -/
  key : Option RsaKey
  /-- Whether the subject is said to be an authority, if anything is said. -/
  authority : Option Bool
  /-- Whether the key may sign certificates, if its use is restricted. -/
  signsCertificates : Option Bool
  /-- The signature algorithm as the signed part names it. -/
  innerAlgorithm : Bytes
  /-- The signature algorithm as the signature names it. -/
  outerAlgorithm : Bytes
  signature : Bytes
  deriving DecidableEq, Repr

/-- Whether a certificate is valid at a moment. -/
inductive Validity where
  | valid
  | expired
  | notYetValid
  deriving DecidableEq, Repr

namespace Certificate

/-! ## The binary form -/

/-- A text as names are compared: small letters, single blanks, none at the ends. -/
def canonicalText (bs : Bytes) : Bytes :=
  let words := (bs.map fun b => if 0x41 ≤ b ∧ b ≤ 0x5A then b + 0x20 else b).splitBy
    fun a b => (a == 0x20) == (b == 0x20)
  List.intercalate [0x20] (words.filter fun w => w.head? != some 0x20)

def attribute? (e : Der.Element) : Option NameAttribute := do
  match ← e.parts with
  | [kind, text] =>
    if kind.tag = Der.objectIdentifier then some ⟨kind.content, canonicalText text.content⟩
    else none
  | _ => none

/-- A name is a sequence of sets of attributes. -/
def name? (e : Der.Element) : Option (List (List NameAttribute)) := do
  (← e.parts).mapM fun s => do
    if s.tag = Der.set then (← s.parts).mapM attribute? else none

def time? (e : Der.Element) : Option CalendarTime :=
  let cs := e.content.map fun b => Char.ofNat b.toNat
  if e.tag = Der.utcTime then CalendarTime.ofShort? cs
  else if e.tag = Der.generalizedTime then CalendarTime.ofLong? cs
  else none

/-- The identifier of RSA keys. -/
def rsaKeys : Bytes := [0x2A, 0x86, 0x48, 0x86, 0xF7, 0x0D, 0x01, 0x01, 0x01]

/-- The identifiers of the signature algorithms, which differ in their last number. -/
def signatureBank? (algorithm : Bytes) : Option Bank := do
  let (e, _) ← Der.expect Der.sequence algorithm
  let (kind, _) ← Der.expect Der.objectIdentifier e.content
  if kind.content.dropLast = rsaKeys.dropLast then
    match kind.content.getLast? with
    | some 5 => some .sha1
    | some 11 => some .sha256
    | some 12 => some .sha384
    | some 13 => some .sha512
    | _ => none
  else none

/-- The bytes of a string of bits, which must be whole bytes. -/
def bits? (e : Der.Element) : Option Bytes :=
  match e.tag == Der.bitString, e.content with
  | true, _ :: bytes => some bytes
  | _, _ => none

/-- The key of a certificate, if it is an RSA key. -/
def key? (e : Der.Element) : Option RsaKey := do
  let (algorithm, rest) ← Der.expect Der.sequence e.content
  let (kind, _) ← Der.expect Der.objectIdentifier algorithm.content
  if kind.content ≠ rsaKeys then none
  let (bits, _) ← Der.expect Der.bitString rest
  let (pair, _) ← Der.expect Der.sequence (← bits? bits)
  let (modulus, rest) ← Der.expect Der.integer pair.content
  let (exponent, _) ← Der.expect Der.integer rest
  some ⟨Digest.ofBigEndian modulus.content, Digest.ofBigEndian exponent.content⟩

/-- The value of an extension by its identifier. -/
def extension? (kind : Bytes) (extensions : List Der.Element) : Option Bytes :=
  extensions.findSome? fun e => do
    let parts ← e.parts
    if parts.head?.map Der.Element.content = some kind then
      let last ← parts.getLast?
      if last.tag = Der.octetString then some last.content else none
    else none

/-- Whether the subject is an authority, from the extension about basic constraints. -/
def authority? (extensions : List Der.Element) : Option Bool := do
  let value ← extension? [0x55, 0x1D, 0x13] extensions
  let (e, _) ← Der.expect Der.sequence value
  match Der.optional Der.boolean e.content with
  | (some b, _) => some (b.content != [0])
  | (none, _) => some false

/-- Whether the key may sign certificates, from the extension about its use. -/
def signsCertificates? (extensions : List Der.Element) : Option Bool := do
  let value ← extension? [0x55, 0x1D, 0x0F] extensions
  let (e, _) ← Der.expect Der.bitString value
  some (((e.content.drop 1).headD 0 &&& 0x04) != 0)

/-- The extensions at the end of the signed part. -/
def extensions? : List Der.Element → Option (List Der.Element)
  | [] => some []
  | e :: rest =>
    if e.tag = Der.context 3 then do
      match ← e.parts with
      | [s] => if s.tag = Der.sequence then s.parts else none
      | _ => none
    else extensions? rest

/-- The certificate at the start of the input. -/
def ofBytes? (bs : Bytes) : Option Certificate := do
  let (whole, _) ← Der.expect Der.sequence bs
  match ← whole.parts with
  | [signed, algorithm, signature] =>
    if signed.tag ≠ Der.sequence ∨ algorithm.tag ≠ Der.sequence then none
    let (version, rest) := Der.optional (Der.context 0) signed.content
    let (_, rest) ← Der.expect Der.integer rest
    let (inner, rest) ← Der.expect Der.sequence rest
    let (issuer, rest) ← Der.expect Der.sequence rest
    let (validity, rest) ← Der.expect Der.sequence rest
    let (subject, rest) ← Der.expect Der.sequence rest
    let (key, rest) ← Der.expect Der.sequence rest
    match ← validity.parts with
    | [notBefore, notAfter] =>
      let extensions ← extensions? (← Der.readAll rest.length rest)
      some {
        encoded := whole.encoded
        signedPart := signed.encoded
        isVersion1 := version.isNone || version.map Der.Element.content == some [2, 1, 0]
        issuer := ← name? issuer
        subject := ← name? subject
        notBefore := ← time? notBefore
        notAfter := ← time? notAfter
        key := key? key
        authority := authority? extensions
        signsCertificates := signsCertificates? extensions
        innerAlgorithm := inner.encoded
        outerAlgorithm := algorithm.encoded
        signature := ← bits? signature }
    | _ => none
  | _ => none

/-! ## Text -/

/-- Whether a block holds a certificate. -/
def isLabel (label : List Char) : Bool :=
  label == "CERTIFICATE".toList || label == "X509 CERTIFICATE".toList

/-- The certificates of a text with PEM blocks; blocks with other contents are passed over. -/
def bundle? (s : String) : Option (List Certificate) :=
  let (blocks, good) := Pem.blocks s
  if good then (blocks.filter fun b => isLabel b.label).mapM fun b => ofBytes? b.content else none

/-- The first certificate of a text with PEM blocks. -/
def ofPem? (s : String) : Option Certificate := do
  let block ← (Pem.blocks s).1.find? fun b => isLabel b.label
  ofBytes? block.content

/-- Reads a certificate from text. `role` tells in messages whose certificate it is. -/
def decode (s role : String) : Except CertificateError Certificate :=
  let text := Text.trimChars s.toList
  let read (c : Option Certificate) : Except CertificateError Certificate :=
    match c with
    | some c => return c
    | none => throw (.unreadable role)
  if "-----BEGIN".toList.isPrefixOf text then read (ofPem? (String.ofList text))
  else
    match Base64.decodeChars (text.filter fun c => !Text.isBlank c) with
    | some bytes => read (ofBytes? bytes)
    | none => throw (.notBase64 role)

/-! ## Meaning -/

/-- Whether the certificate is valid at a moment, in seconds since 1970. -/
def validityAt (c : Certificate) (time : Int) : Except VerificationError Validity :=
  if time < CalendarTime.leastUnix ∨ CalendarTime.greatestUnix < time then throw .timeOutOfRange
  else if time < c.notBefore.toUnix then return .notYetValid
  else if c.notAfter.toUnix < time then return .expired
  else return .valid

/-- Whether a signature over data, made with the 48 byte digest, is that of the certified key, if
this is an RSA key. -/
def verifiesData (c : Certificate) (data signature : Bytes) : Bool :=
  match c.key with
  | some key => key.verifies .sha384 data signature
  | none => false

/-- Whether a certificate is signed with the RSA key of this one. -/
def hasSigned (issuer c : Certificate) : Bool :=
  match issuer.key, signatureBank? c.outerAlgorithm with
  | some key, some bank =>
    c.innerAlgorithm == c.outerAlgorithm && key.verifies bank c.signedPart c.signature
  | _, _ => false

/-- Whether issuer and subject have the same name. -/
def isSelfIssued (c : Certificate) : Bool := c.issuer == c.subject

/-- Whether the use of the key does not forbid to sign certificates. -/
def maySign (c : Certificate) : Bool := c.signsCertificates != some false

/-- Whether the subject is an authority: it says so, or it says nothing and is a root of the
first version, or the use of its key says that it signs certificates. -/
def isAuthority (c : Certificate) : Bool :=
  c.maySign &&
    match c.authority with
    | some isCa => isCa
    | none => (c.isVersion1 && c.isSelfIssued) || c.signsCertificates.isSome

end Certificate

end HostTrust
