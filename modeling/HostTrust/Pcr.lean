/-
HostTrust.Pcr — platform configuration registers, the values a host reports for
them, and the faults of measurement data.

A register is named by its bank and an index below 24. A reported value is
compared without regard to letter case.
-/
import HostTrust.Bank
import HostTrust.Json.Misfit

namespace HostTrust

/-- A register: an index within a bank. -/
structure Pcr where
  index : Fin 24
  bank : Bank
  deriving DecidableEq, Repr

/-- The value a host reports for a register. -/
structure PcrValue where
  pcr : Pcr
  value : String
  deriving DecidableEq, Repr

/-- A register as messages name it. -/
def Pcr.display (p : Pcr) : String :=
  "PCR " ++ toString p.index.val ++ " (" ++ p.bank.name ++ ")"

/-- What is wrong with measurement data. -/
inductive MeasurementError where
  | unreplayable (failure : ReplayFailure)
  | manifestTooLarge
  | manifestMisfit (misfit : Json.Misfit)
  | unknownAlgorithm (name : String)
  | indexOutOfRange (index : Nat)
  | badDigest (value : PcrValue)
  | duplicateValue (pcr : Pcr)
  | otherBankAmongSha1
  | sha1AmongOthers
  | misplacedLog (pcr : Pcr) (bank : Bank)
  | differentPcrs (one other : Pcr)
  deriving DecidableEq, Repr

/-- Whether data cannot be read at all, or is read and inconsistent. -/
inductive MeasurementError.Kind where
  | input
  | validation
  deriving DecidableEq, Repr

namespace MeasurementError

def kind : MeasurementError → Kind
  | .unreplayable _ | .manifestTooLarge | .manifestMisfit _ => .input
  | _ => .validation

def description : MeasurementError → String
  | .unreplayable failure =>
    "Failed to decode measurement at position " ++ toString failure.position ++ ": " ++
      failure.reason.message
  | .manifestTooLarge => "Host manifest exceeds 5MB limit"
  | .manifestMisfit misfit => "Failed to parse host manifest: " ++ misfit.message
  | .unknownAlgorithm name => "Unsupported hash algorithm: " ++ name
  | .indexOutOfRange index => "PCR index " ++ toString index ++ " is out of valid range (0-23)"
  | .badDigest value =>
    "Invalid digest for " ++ value.pcr.display ++ ": expected " ++
      toString value.pcr.bank.hexLength ++ " hex characters, got '" ++ value.value ++ "'"
  | .duplicateValue pcr => "Duplicate PCR value for " ++ pcr.display
  | .otherBankAmongSha1 => "sha1pcrs contains a non SHA1 PCR"
  | .sha1AmongOthers => "sha2pcrs contains a SHA1 PCR"
  | .misplacedLog pcr bank =>
    "Event log for " ++ pcr.display ++ " listed under bank " ++ bank.name
  | .differentPcrs one other =>
    "Cannot compare event logs of different PCRs: " ++ one.display ++ " and " ++ other.display

def message (e : MeasurementError) : String :=
  match e.kind with
  | .input => "Input error: " ++ e.description
  | .validation => "Validation error: " ++ e.description

end MeasurementError

/-- The bank that a text names. -/
def Bank.parse (s : String) : Except MeasurementError Bank :=
  match Bank.ofName? s with
  | some b => return b
  | none => throw (.unknownAlgorithm s)

/-- The register with an index, which must be below 24. -/
def Pcr.ofIndex (index : Nat) (bank : Bank) : Except MeasurementError Pcr :=
  if h : index < 24 then return ⟨⟨index, h⟩, bank⟩ else throw (.indexOutOfRange index)

namespace PcrValue

/-- Whether a text is the value, up to letter case and blanks around the text. -/
def agrees (v : PcrValue) (other : String) : Bool :=
  Text.sameIgnoringCase v.value (Text.trim other)

/-- A value is the hexadecimal form of a digest of its bank. -/
def validate (v : PcrValue) : Except MeasurementError Unit :=
  if v.pcr.bank.acceptsHex v.value then return () else throw (.badDigest v)

end PcrValue

end HostTrust
