/-
HostTrust.Command.Execution — carrying out a command.

Settings are read first, then logging is started if they ask for it, then the
certificates and the flavors are read, and then the hosts are verified in
order. Several hosts are all verified before the first error among them is
reported. Nothing but logging is changed.
-/
import HostTrust.Command
import HostTrust.Logging
import HostTrust.Report.Format
import HostTrust.Settings
import HostTrust.Verifier

namespace HostTrust

variable [CertificateLibrary]

/-- Why a command cannot be carried out. -/
inductive CommandError where
  | settings (e : SettingsError)
  | unreadable (path : String) (e : OsError)
  /-- The file of flavors is no JSON. -/
  | notJson
  | noFlavors (path : String)
  | verification (e : VerificationError)
  | measurement (e : MeasurementError)
  | logging (e : LogError)
  deriving DecidableEq, Repr

namespace CommandError

/-- What an error is about. -/
inductive Kind where
  | settings
  | files
  | flavors
  | verification (kind : VerificationError.Kind)
  | measurement (kind : MeasurementError.Kind)
  | logging (kind : LogError.Kind)
  deriving DecidableEq, Repr

def kind : CommandError → Kind
  | .settings _ => .settings
  | .unreadable _ _ => .files
  | .notJson | .noFlavors _ => .flavors
  | .verification e => .verification e.kind
  | .measurement e => .measurement e.kind
  | .logging e => .logging e.kind

def message : CommandError → String
  | .settings e => "Config error: " ++ e.message
  | .unreadable path e => "Failed to read " ++ path ++ ": " ++ e.message
  | .notJson => "Parse error: " ++ withheld
  | .noFlavors path => "Parse error: No flavor found in " ++ path
  | .verification e => e.message
  | .measurement e => e.message
  | .logging e => e.message

end CommandError

/-- The report on one host. -/
structure HostReport where
  /-- The file with the host's manifest. -/
  manifest : String
  hostName : String
  report : TrustReport

namespace HostReport

def trusted (r : HostReport) : Bool := r.report.trusted

def toJson (r : HostReport) : Json :=
  .object (("manifest", .text r.manifest) ::
    (if r.hostName.isEmpty then [] else [("host_name", .text r.hostName)]) ++
    [("trusted", .bool r.trusted), ("report", TrustReport.format.write r.report)])

end HostReport

/-- What a command finds out. -/
inductive Finding where
  | host (report : HostReport)
  | hosts (reports : List HostReport)

namespace Finding

/-- Whether every host is trusted. -/
def trusted : Finding → Bool
  | .host report => report.trusted
  | .hosts reports => reports.all HostReport.trusted

def toJson : Finding → Json
  | .host report => report.toJson
  | .hosts reports => .list (reports.map HostReport.toJson)

end Finding

/-- The report on a host by the content of the file with its manifest. -/
def TrustVerifier.reportOn (v : TrustVerifier) (time : Int) (flavors : List SignedFlavor)
    (path : String) (content : Bytes) : Except CommandError HostReport := do
  let host ← (HostManifest.ofBytes content).mapError CommandError.measurement
  let report ← (v.verifyAllOfAt host flavors time).mapError CommandError.verification
  return ⟨path, host.hostInfo.hostName, report⟩

section

variable {m : Type → Type} [Monad m]

/-- The content of a file that a command names. -/
def Workspace.content (w : Workspace m) (path : String) : ExceptT CommandError m Bytes :=
  (w.read path).adapt (.unreadable path)

/-- The settings in a file. -/
def Settings.load (w : Workspace m) (path : String) : ExceptT CommandError m Settings := do
  let s ← (w.readText path).adapt (.unreadable path)
  liftExcept ((parse s).mapError CommandError.settings)

/-- The flavors in a text: a list of them, or a single one. -/
def SignedFlavor.listOfBytes (path : String) (content : Bytes) :
    Except CommandError (List SignedFlavor) := do
  match Json.ofBytes? content with
  | none => throw .notJson
  | some (.list []) => throw (.noFlavors path)
  | some (.list items) => (items.mapM ofJson).mapError .verification
  | some single => return [← (ofJson single).mapError .verification]

/-- The flavors in a file. -/
def SignedFlavor.loadAll (w : Workspace m) (path : String) :
    ExceptT CommandError m (List SignedFlavor) := do
  liftExcept (listOfBytes path (← w.content path))

/-- Verifies the host whose manifest is in a file. -/
def TrustVerifier.verifyHost (v : TrustVerifier) (w : Workspace m) (time : Int)
    (flavors : List SignedFlavor) (path : String) : ExceptT CommandError m HostReport := do
  liftExcept (v.reportOn time flavors path (← w.content path))

/-- Verifies several hosts. -/
def TrustVerifier.verifyHosts (v : TrustVerifier) (w : Workspace m) (time : Int)
    (flavors : List SignedFlavor) (paths : List String) :
    ExceptT CommandError m (List HostReport) := do
  let reports ← ExceptT.lift (paths.mapM fun path => (v.verifyHost w time flavors path).run)
  liftExcept (reports.mapM id)

/-- A verifier as the settings ask for it. -/
def Settings.verifier (s : Settings) (w : Workspace m) (skipSignature : Bool) :
    ExceptT CommandError m TrustVerifier := do
  let anchors ← (TrustAnchors.load w s.anchorFiles).adapt fun e => .verification (.certificate e)
  return { TrustVerifier.ofAnchors anchors with skipSignature := skipSignature || s.skipSignature }

/-- Carries out a command with given settings. -/
def Command.perform (c : Command) (w : Workspace m) (time : Int) (s : Settings) :
    ExceptT CommandError m Finding := do
  match c with
  | .verify manifest flavors skipSignature =>
    let v ← s.verifier w skipSignature
    return .host (← v.verifyHost w time (← SignedFlavor.loadAll w flavors) manifest)
  | .verifyHosts manifests flavors =>
    let v ← s.verifier w false
    return .hosts (← v.verifyHosts w time (← SignedFlavor.loadAll w flavors) manifests)

/-- Starts logging as the settings ask for it. -/
def Settings.startLogging (s : Settings) (w : Workspace m) (l : Logging) :
    ExceptT LogError m Logging :=
  match s.logging with
  | some path => l.ensureStarted w path
  | none => return l

/-- Does what a command line asks for: what is found out, and logging as it is then. -/
def Invocation.run (i : Invocation) (w : Workspace m) (time : Int) (l : Logging) :
    ExceptT CommandError m (Finding × Logging) := do
  let s ← Settings.load w i.settingsFile
  let l ← (s.startLogging w l).adapt .logging
  return (← i.command.perform w time s, l)

end

/-! The library of the program as it runs. -/

attribute [instance] CertificateLibrary.rsa

end HostTrust
