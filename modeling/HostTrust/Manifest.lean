/-
HostTrust.Manifest — what a host reports about itself.

A manifest holds descriptive information, register values and event logs,
certificates and measurement documents. `validate` checks the register data:
every value is a digest of its bank, no register has two values, values stand
in the list of their bank, and so do event logs.
-/
import HostTrust.EventLog

namespace HostTrust

/-- The descriptive part of a report. -/
structure HostInfo where
  hostName : String
  hardwareUuid : String
  osName : String
  osVersion : String
  biosName : String
  biosVersion : String
  vmmName : String
  tpmVersion : String
  deriving DecidableEq, Repr

def HostInfo.blank : HostInfo := ⟨"", "", "", "", "", "", "", ""⟩

/-- A value for some of the banks. -/
structure BankMap (α : Type) where
  sha1 : Option α
  sha256 : Option α
  sha384 : Option α
  sha512 : Option α
  deriving DecidableEq, Repr

namespace BankMap

def empty {α : Type} : BankMap α := ⟨none, none, none, none⟩

def get? {α : Type} (m : BankMap α) : Bank → Option α
  | .sha1 => m.sha1
  | .sha256 => m.sha256
  | .sha384 => m.sha384
  | .sha512 => m.sha512

def insert {α : Type} (m : BankMap α) (bank : Bank) (a : α) : BankMap α :=
  match bank with
  | .sha1 => { m with sha1 := some a }
  | .sha256 => { m with sha256 := some a }
  | .sha384 => { m with sha384 := some a }
  | .sha512 => { m with sha512 := some a }

/-- The entries in the order of the banks. -/
def toList {α : Type} (m : BankMap α) : List (Bank × α) :=
  Bank.all.filterMap fun b => (m.get? b).map fun a => (b, a)

/-- The map of a list of entries, of which the last one of a bank counts. -/
def ofList {α : Type} (entries : List (Bank × α)) : BankMap α :=
  entries.foldl (fun m e => m.insert e.1 e.2) empty

end BankMap

/-- Register values, in two lists by bank, and the event logs of each bank. -/
structure PcrManifest where
  sha1Values : List PcrValue
  otherValues : List PcrValue
  logs : BankMap (List EventLog)
  deriving DecidableEq, Repr

namespace PcrManifest

def empty : PcrManifest := ⟨[], [], .empty⟩

/-- All reported values. -/
def values (m : PcrManifest) : List PcrValue := m.sha1Values ++ m.otherValues

/-- Whether neither values nor logs are reported. -/
def isEmpty (m : PcrManifest) : Bool :=
  m.sha1Values.isEmpty && m.otherValues.isEmpty && m.logs.toList.all (·.2.isEmpty)

/-- The value reported for a register: the first one in the list of its bank. -/
def value? (m : PcrManifest) (pcr : Pcr) : Option PcrValue :=
  (match pcr.bank with
    | .sha1 => m.sha1Values
    | _ => m.otherValues).find? (·.pcr == pcr)

/-- The event log reported for a register: the first one under its bank. -/
def log? (m : PcrManifest) (pcr : Pcr) : Option EventLog := do
  (← m.logs.get? pcr.bank).find? (·.pcr == pcr)

/-- Checks values in order; `seen` holds the registers of those before. -/
def validateValues (seen : List Pcr) : List PcrValue → Except MeasurementError Unit
  | [] => return ()
  | v :: rest => do
    v.validate
    if seen.contains v.pcr then throw (.duplicateValue v.pcr)
    validateValues (v.pcr :: seen) rest

/-- Checks that the logs under each bank are logs of that bank. -/
def validateLogs : List (Bank × List EventLog) → Except MeasurementError Unit
  | [] => return ()
  | (bank, logs) :: rest =>
    match logs.find? (·.pcr.bank != bank) with
    | some log => throw (.misplacedLog log.pcr bank)
    | none => validateLogs rest

/-- Whether the register data is consistent. -/
def validate (m : PcrManifest) : Except MeasurementError Unit := do
  validateValues [] m.values
  if m.sha1Values.any (·.pcr.bank != .sha1) then throw .otherBankAmongSha1
  if m.otherValues.any (·.pcr.bank == .sha1) then throw .sha1AmongOthers
  validateLogs m.logs.toList

end PcrManifest

/-- The report of a host. -/
structure HostManifest where
  hostInfo : HostInfo
  pcrs : Option PcrManifest
  aikCertificate : Option String
  bindingKeyCertificate : Option String
  /-- Informational: the asset tag is checked against its register. -/
  assetTagDigest : Option String
  measurementXmls : List String
  deriving DecidableEq, Repr

namespace HostManifest

/-- The manifest of a host that reports nothing. -/
def blank : HostManifest := ⟨.blank, none, none, none, none, []⟩

/-- The register data, if the host reports any. -/
def reportedPcrs (m : HostManifest) : Option PcrManifest :=
  m.pcrs.filter fun p => !p.isEmpty

def validate (m : HostManifest) : Except MeasurementError Unit :=
  match m.pcrs with
  | some p => p.validate
  | none => return ()

/-- The greatest written size of a manifest, in bytes. -/
def sizeLimit : Nat := 5 * 1024 * 1024

end HostManifest

end HostTrust
