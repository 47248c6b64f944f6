/-
HostTrust.Manifest.Format — how measurement data is written as JSON, and how a
host's report is read.

A report may come as bytes or as a value in memory. In either form it must not
be larger than the limit, it must have the shape of a manifest, and its
register data must be consistent.
-/
import HostTrust.Manifest
import HostTrust.Json.Printer
import HostTrust.Json.Record

namespace HostTrust

open Json

/-- A fault of the parts of a structure, as its reader reports it. -/
def MeasurementError.asMisfit (e : MeasurementError) : Misfit := .rejected e.message

def Bank.ofWritten? : String → Option Bank
  | "SHA1" | "sha1" => some .sha1
  | "SHA256" | "sha256" => some .sha256
  | "SHA384" | "sha384" => some .sha384
  | "SHA512" | "sha512" => some .sha512
  | _ => none

def Bank.format : Format Bank := .named Bank.ofWritten? Bank.name

/-- A register from its index and bank. -/
def Pcr.ofParts (index : Nat) (bank : Bank) : Except Misfit Pcr :=
  (Pcr.ofIndex index bank).mapError (·.asMisfit)

def Pcr.fields : Fields [Nat, Bank] :=
  .cons (.required "index" (.natural 32)) (.cons (.required "bank" Bank.format) .nil)

def Pcr.format : Format Pcr :=
  .via (Pcr.fields.record id id) (fun (index, bank, _) => Pcr.ofParts index bank)
    fun p => (p.index.val, p.bank, ())

def PcrValue.fields : Fields [Nat, String, Bank] :=
  .cons (.required "index" (.natural 32)) (.cons (.required "value" .text)
    (.cons (.required "pcr_bank" Bank.format) .nil))

def PcrValue.format : Format PcrValue :=
  .via (PcrValue.fields.record id id)
    (fun (index, value, bank, _) => (⟨·, value⟩) <$> Pcr.ofParts index bank)
    fun v => (v.pcr.index.val, v.value, v.pcr.bank, ())

/-- A set of names is written as a list. -/
def NameSet.format : Format NameSet :=
  .via (.list .text) (fun names => .ok (.ofList names)) NameSet.toList

/-- A set of names that is written only if it is not empty. -/
def NameSet.field (name : String) : Json.Field NameSet :=
  ⟨name, [], NameSet.format, some .empty, NameSet.isEmpty⟩

def Event.fields : Fields [String, String, NameSet, String] :=
  .cons (.required "type_id" .text) (.cons (.textOrEmpty "type_name")
    (.cons (NameSet.field "tags") (.cons (.required "measurement" .text) .nil)))

def Event.format : Format Event :=
  Event.fields.record
    (fun (typeId, typeName, tags, measurement, _) => ⟨typeId, typeName, tags, measurement⟩)
    fun e => (e.typeId, e.typeName, e.tags, e.measurement, ())

def EventMismatch.fields : Fields [Event, Event] :=
  .cons (.required "expected" Event.format) (.cons (.required "actual" Event.format) .nil)

def EventMismatch.format : Format EventMismatch :=
  EventMismatch.fields.record (fun (expected, actual, _) => ⟨expected, actual⟩)
    fun m => (m.expected, m.actual, ())

def EventLog.fields : Fields [Pcr, List Event] :=
  .cons (.required "pcr" Pcr.format)
    (.cons ((Field.listOrEmpty "tpm_events" Event.format).also "events") .nil)

def EventLog.format : Format EventLog :=
  EventLog.fields.record (fun (pcr, events, _) => ⟨pcr, events⟩) fun l => (l.pcr, l.events, ())

/-- A comparison of logs; it is only written. -/
def EventLogDiff.toJson (d : EventLogDiff) : Json :=
  .object [("missing", Format.write (.list Event.format) d.missing),
    ("unexpected", Format.write (.list Event.format) d.unexpected),
    ("field_mismatches", Format.write (.list EventMismatch.format) d.mismatches)]

def HostInfo.fields :
    Fields [String, String, String, String, String, String, String, String] :=
  .cons (.textOrEmpty "host_name") (.cons (.textOrEmpty "hardware_uuid")
    (.cons (.textOrEmpty "os_name") (.cons (.textOrEmpty "os_version")
      (.cons (.textOrEmpty "bios_name") (.cons (.textOrEmpty "bios_version")
        (.cons (.textOrEmpty "vmm_name") (.cons (.textOrEmpty "tpm_version") .nil)))))))

def HostInfo.format : Format HostInfo :=
  HostInfo.fields.record (fun (a, b, c, d, e, f, g, h, _) => ⟨a, b, c, d, e, f, g, h⟩)
    fun i => (i.hostName, i.hardwareUuid, i.osName, i.osVersion, i.biosName, i.biosVersion,
      i.vmmName, i.tpmVersion, ())

/-- The bank that a key names. -/
def Bank.ofKey (key : String) : Except Misfit Bank :=
  match Bank.ofWritten? key with
  | some b => .ok b
  | none => .error (.unknownVariant key)

/-- A map from banks is written as an object. -/
def BankMap.format {α : Type} (f : Format α) : Format (BankMap α) where
  read source
    | .object members => BankMap.ofList <$> Format.readEntries Bank.ofKey f source members
    | d => throw d.misfit
  write m := .object (m.toList.map fun (bank, a) => (bank.name, f.write a))

def PcrManifest.fields : Fields [List PcrValue, List PcrValue, BankMap (List EventLog)] :=
  .cons (.listOrEmpty "sha1pcrs" PcrValue.format)
    (.cons (.listOrEmpty "sha2pcrs" PcrValue.format)
      (.cons ((Field.withDefault "pcr_event_log_map" (BankMap.format (.list EventLog.format))
        .empty).also "pcr_event_log_map_new") .nil))

def PcrManifest.format : Format PcrManifest :=
  PcrManifest.fields.record (fun (sha1, others, logs, _) => ⟨sha1, others, logs⟩)
    fun m => (m.sha1Values, m.otherValues, m.logs, ())

def HostManifest.fields : Fields
    [HostInfo, Option PcrManifest, Option String, Option String, Option String, List String] :=
  .cons (.withDefault "host_info" HostInfo.format .blank)
    (.cons (.optional "pcr_manifest" PcrManifest.format)
      (.cons (.optional "aik_certificate" .text)
        (.cons (.optional "binding_key_certificate" .text)
          (.cons (.optional "asset_tag_digest" .text)
            (.cons (.listIfAny "measurement_xmls" .text) .nil)))))

def HostManifest.format : Format HostManifest :=
  HostManifest.fields.record (fun (a, b, c, d, e, f, _) => ⟨a, b, c, d, e, f⟩)
    fun m => (m.hostInfo, m.pcrs, m.aikCertificate, m.bindingKeyCertificate, m.assetTagDigest,
      m.measurementXmls, ())

namespace HostManifest

/-- Accepts a manifest that has been read, if its register data is consistent. -/
def checked (m : Except Misfit HostManifest) : Except MeasurementError HostManifest := do
  let m ← m.mapError .manifestMisfit
  m.validate
  return m

/-- Reads a report that is a value in memory; its size is that of its compact form. -/
def ofJson (v : Json) : Except MeasurementError HostManifest :=
  if sizeLimit < v.toBytes.length then throw .manifestTooLarge
  else checked (format.readJson v)

/-- Reads a report from bytes. -/
def ofBytes (bs : Bytes) : Except MeasurementError HostManifest :=
  if sizeLimit < bs.length then throw .manifestTooLarge
  else checked (format.readBytes bs)

end HostManifest

end HostTrust
