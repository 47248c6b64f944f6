/-
HostTrust.Flavor.Format — how flavors are written as JSON, and the bytes that
their signatures cover.
-/
import HostTrust.Flavor
import HostTrust.Json.Printer
import HostTrust.Manifest.Format

namespace HostTrust

open Json

/-- An identifier is written as its text; a text that is none is malformed. -/
def Uuid.format : Format Uuid :=
  .via .text (fun s => match Uuid.ofText? s with | some u => .ok u | none => .error .malformed)
    Uuid.display

def FlavorPart.format : Format FlavorPart := .named FlavorPart.ofName? FlavorPart.name

def Vendor.format : Format Vendor := .named Vendor.ofName? Vendor.name

namespace MeasuredKind

def written : MeasuredKind → String
  | .directory => "directoryMeasurementType"
  | .file => "fileMeasurementType"
  | .symlink => "symlinkMeasurementType"

def ofWritten? (s : String) : Option MeasuredKind :=
  [MeasuredKind.directory, .file, .symlink].find? (·.written == s)

def format : Format MeasuredKind := .named ofWritten? written

end MeasuredKind

/-- A map from names is written as an object in the order of the names. -/
def NameMap.format {α : Type} (f : Format α) : Format (NameMap α) where
  read source
    | .object members => NameMap.ofList <$> Format.readEntries .ok f source members
    | d => throw d.misfit
  write m := .object (m.entries.map fun (name, a) => (name, f.write a))

def Measurement.fields :
    Fields [MeasuredKind, String, String, Option String, Option String] :=
  .cons (.required "type" MeasuredKind.format) (.cons (.required "path" .text)
    (.cons (.required "value" .text) (.cons (.optional "include" .text)
      (.cons (.optional "exclude" .text) .nil))))

def Measurement.format : Format Measurement :=
  Measurement.fields.record (fun (a, b, c, d, e, _) => ⟨a, b, c, d, e⟩)
    fun m => (m.kind, m.path, m.value, m.includes, m.excludes, ())

def FlavorDescription.fields : Fields [Option String, Option String, Option String,
    Option String, Option String, Option String, Option String] :=
  .cons (.optional "flavor_part" .text) (.cons (.optional "label" .text)
    (.cons (.optional "source" .text) (.cons (.optional "tpm_version" .text)
      (.cons (.optional "os_name" .text) (.cons (.optional "bios_name" .text)
        (.cons (.optional "digest_algorithm" .text) .nil))))))

def FlavorDescription.format : Format FlavorDescription :=
  FlavorDescription.fields.record (fun (a, b, c, d, e, f, g, _) => ⟨a, b, c, d, e, f, g⟩)
    fun d => (d.flavorPart, d.label, d.source, d.tpmVersion, d.osName, d.biosName,
      d.digestAlgorithm, ())

def FlavorMeta.fields : Fields [Uuid, Option String, FlavorDescription] :=
  .cons (.required "id" Uuid.format) (.cons (.optional "vendor" .text)
    (.cons (.withDefault "description" FlavorDescription.format .blank) .nil))

def FlavorMeta.format : Format FlavorMeta :=
  FlavorMeta.fields.record (fun (a, b, c, _) => ⟨a, b, c⟩) fun m =>
    (m.id, m.vendor, m.description, ())

def ExpectedEvents.fields : Fields [List Event, NameSet] :=
  .cons (.listOrEmpty "events" Event.format) (.cons (NameSet.field "exclude_tags") .nil)

def ExpectedEvents.format : Format ExpectedEvents :=
  ExpectedEvents.fields.record (fun (a, b, _) => ⟨a, b⟩) fun e => (e.events, e.excludeTags, ())

def PcrPolicy.fields :
    Fields [Pcr, String, Bool, Option ExpectedEvents, Option (List Event)] :=
  .cons (.required "pcr" Pcr.format) (.cons (.required "measurement" .text)
    (.cons (.withDefault "pcr_matches" .bool false)
      (.cons (.optional "eventlog_equals" ExpectedEvents.format)
        (.cons (.optional "eventlog_includes" (.list Event.format)) .nil))))

def PcrPolicy.format : Format PcrPolicy :=
  PcrPolicy.fields.record (fun (a, b, c, d, e, _) => ⟨a, b, c, d, e⟩) fun p =>
    (p.pcr, p.measurement, p.matchesValue, p.logEquals, p.logIncludes, ())

def TagCertificate.fields : Fields [String] := .cons (.required "encoded" .text) .nil

def TagCertificate.format : Format TagCertificate :=
  TagCertificate.fields.record (fun (a, _) => ⟨a⟩) fun c => (c.encoded, ())

def AssetTag.fields : Fields [Option TagCertificate] :=
  .cons (.optional "tag_certificate" TagCertificate.format) .nil

def AssetTag.format : Format AssetTag :=
  AssetTag.fields.record (fun (a, _) => ⟨a⟩) fun t => (t.tagCertificate, ())

def External.fields : Fields [Option AssetTag] :=
  .cons (.optional "asset_tag" AssetTag.format) .nil

def External.format : Format External :=
  External.fields.record (fun (a, _) => ⟨a⟩) fun e => (e.assetTag, ())

def SoftwareMeasurement.fields :
    Fields [MeasuredKind, String, Option String, Option String] :=
  .cons (.required "type" MeasuredKind.format) (.cons (.required "value" .text)
    (.cons (.optional "include" .text) (.cons (.optional "exclude" .text) .nil)))

def SoftwareMeasurement.format : Format SoftwareMeasurement :=
  SoftwareMeasurement.fields.record (fun (a, b, c, d, _) => ⟨a, b, c, d⟩) fun m =>
    (m.kind, m.value, m.includes, m.excludes, ())

def Software.fields : Fields [NameMap SoftwareMeasurement, String] :=
  .cons (.withDefault "measurements" (NameMap.format SoftwareMeasurement.format) .empty)
    (.cons (.required "cumulative_hash" .text) .nil)

def Software.format : Format Software :=
  Software.fields.record (fun (a, b, _) => ⟨a, b⟩) fun s => (s.measurements, s.cumulativeHash, ())

def Flavor.fields : Fields [Option FlavorMeta, Option Json, Option Json, List PcrPolicy,
    Option External, Option Software] :=
  .cons (.optional "meta" FlavorMeta.format) (.cons (.optional "bios" .any)
    (.cons (.optional "hardware" .any) (.cons (.listIfAny "pcrs" PcrPolicy.format)
      (.cons (.optional "external" External.format)
        (.cons (.optional "software" Software.format) .nil)))))

def Flavor.format : Format Flavor :=
  Flavor.fields.record (fun (a, b, c, d, e, f, _) => ⟨a, b, c, d, e, f⟩) fun x =>
    (x.metadata, x.bios, x.hardware, x.pcrs, x.external, x.software, ())

def SignedFlavor.fields : Fields [Flavor, String] :=
  .cons (.required "flavor" Flavor.format) (.cons (.withDefault "signature" .text "") .nil)

def SignedFlavor.format : Format SignedFlavor :=
  SignedFlavor.fields.record (fun (a, b, _) => ⟨a, b⟩) fun s => (s.flavor, s.signature, ())

namespace SignedFlavor

/-- Reads a signed flavor. -/
def ofJson (v : Json) : Except VerificationError SignedFlavor :=
  (format.readJson v).mapError .flavorMisfit

/-- The value whose written form the signature covers. -/
def signedJson (s : SignedFlavor) : Json := Flavor.format.write s.flavor

/-- The bytes that the signature covers: the compact form of the flavor. -/
def signingBytes (s : SignedFlavor) : Bytes := s.signedJson.toBytes

end SignedFlavor

end HostTrust
