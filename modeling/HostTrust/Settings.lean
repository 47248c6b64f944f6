/-
HostTrust.Settings — what a run is set up with.

Settings come from a YAML file. They name files with the trusted certificates
for each purpose, which may be absent but not empty, and the file with the
settings of logging.
-/
import HostTrust.Certificate.Pool
import HostTrust.Workspace
import HostTrust.Yaml.Reader

namespace HostTrust

/-- The files with trusted certificates. -/
structure AnchorFiles where
  privacyCa : Option String
  flavorCa : Option String
  flavorSigning : Option String
  assetTagCa : Option String
  deriving DecidableEq, Repr

/-- What a run is set up with. -/
structure Settings where
  /-- Whether the signatures of flavors are not checked. -/
  skipSignature : Bool
  anchorFiles : AnchorFiles
  /-- The file with the settings of logging. -/
  logging : Option String
  deriving DecidableEq, Repr

/-- Why settings cannot be used. -/
inductive SettingsError where
  | malformed
  | emptyPath (purpose : String)
  | emptyLoggingPath
  deriving DecidableEq, Repr

def SettingsError.message : SettingsError → String
  | .malformed => withheld
  | .emptyPath purpose => "Certificate path '" ++ purpose ++ "' must not be empty"
  | .emptyLoggingPath => "Logging config_file must not be empty"

/-! ## Reading -/

namespace AnchorFiles

/-- No file is named. -/
def absent : AnchorFiles := ⟨none, none, none, none⟩

def ofNode? (n : Yaml.Node) : Option AnchorFiles := do
  let members ← n.members? ["privacy_ca", "flavor_ca", "flavor_signing_cert", "asset_tag_ca"]
  let file := Yaml.optional Yaml.Node.text? members
  return ⟨← file "privacy_ca", ← file "flavor_ca", ← file "flavor_signing_cert",
    ← file "asset_tag_ca"⟩

/-- The files by their purposes, in the order in which they are looked at. -/
def entries (f : AnchorFiles) : List (String × Option String) :=
  [("privacy_ca", f.privacyCa), ("flavor_ca", f.flavorCa),
    ("flavor_signing_cert", f.flavorSigning), ("asset_tag_ca", f.assetTagCa)]

def toJson (f : AnchorFiles) : Json :=
  .object (f.entries.filterMap fun (purpose, file) => file.map fun path => (purpose, .text path))

end AnchorFiles

namespace Settings

/-- The part on verification: whether signatures are skipped, and the certificates. -/
def verification? (n : Yaml.Node) : Option (Bool × AnchorFiles) := do
  let members ← n.members? ["skip_flavor_signature_verification", "certificates"]
  return (← Yaml.withDefault Yaml.Node.bool? false members "skip_flavor_signature_verification",
    ← Yaml.withDefault AnchorFiles.ofNode? .absent members "certificates")

/-- The part on logging: the file with its settings. -/
def loggingFile? (n : Yaml.Node) : Option String := do
  Yaml.required Yaml.Node.text? (← n.members? ["config_file"]) "config_file"

def ofNode? (n : Yaml.Node) : Option Settings := do
  let members ← n.members? ["verifier", "logging"]
  let (skip, files) ← Yaml.withDefault verification? (false, .absent) members "verifier"
  return ⟨skip, files, ← Yaml.optional loggingFile? members "logging"⟩

/-- Accepts settings in which no path is empty. -/
def validate (s : Settings) : Except SettingsError Unit := do
  s.anchorFiles.entries.forM fun (purpose, file) =>
    if file = some "" then throw (.emptyPath purpose) else return ()
  if s.logging = some "" then throw .emptyLoggingPath

/-- The settings that a text describes. -/
def parse (s : String) : Except SettingsError Settings := do
  match (Yaml.read? s).bind ofNode? with
  | some settings =>
    settings.validate
    return settings
  | none => throw .malformed

def toJson (s : Settings) : Json :=
  let verification := .object [("skip_flavor_signature_verification", .bool s.skipSignature),
    ("certificates", s.anchorFiles.toJson)]
  .object (("verifier", verification) ::
    s.logging.toList.map fun path => ("logging", .object [("config_file", .text path)]))

end Settings

/-! ## Trusted certificates -/

/-- The certificates in a file, if one is named. -/
def CertificatePool.load {m : Type → Type} [Monad m] (w : Workspace m) :
    Option String → ExceptT CertificateError m (Option CertificatePool)
  | none => return none
  | some path => do
    let content ← (w.read path).adapt fun e => .unreadableFile path e.message
    return some (← CertificatePool.ofPemBytes content)

/-- The trusted certificates in the files. -/
def TrustAnchors.load {m : Type → Type} [Monad m] (w : Workspace m) (files : AnchorFiles) :
    ExceptT CertificateError m TrustAnchors := do
  let signing ← match ← CertificatePool.load w files.flavorSigning with
    | .none => pure .none
    | some ⟨c :: _⟩ => pure (some c)
    | some ⟨[]⟩ => throw .noSigningCertificate
  let pool := fun file => do return (← CertificatePool.load w file).getD .empty
  return {
    privacyCa := ← pool files.privacyCa
    flavorCa := ← pool files.flavorCa
    flavorSigning := signing
    assetTagCa := ← pool files.assetTagCa }

end HostTrust
