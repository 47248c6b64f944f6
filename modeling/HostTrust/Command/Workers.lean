/-
HostTrust.Command.Workers — several hosts verified at once.

Every host has a worker of its own, which reads the host's file and then
verifies what it has read. A moment of this is a pool: the workers that still
run, each with the place of its host in the command, and the results so far, in
the order in which they came in. Any worker may be the next to get on. When
none is left, the results are put in the order of the hosts, and the first
error among them is reported.

Files and time stand still meanwhile, and no worker is lost.
-/
import HostTrust.Command.Execution
import Mathlib.Logic.Relation

namespace HostTrust

variable [CertificateLibrary]

/-- What all workers share. -/
structure Batch where
  verifier : TrustVerifier
  workspace : Workspace Id
  time : Int
  flavors : List SignedFlavor

/-- What a host comes to. -/
abbrev HostResult := Except CommandError HostReport

/-- How far a worker is. -/
inductive Worker where
  /-- It has not read its file yet. -/
  | waiting (path : String)
  | loaded (path : String) (content : Except CommandError Bytes)

/-- Workers that still run and results that have come in, each with the place of its host. -/
structure WorkerPool where
  running : List (Nat × Worker)
  finished : List (Nat × HostResult)

namespace WorkerPool

/-- A worker for each host, none of which has begun. -/
def start (paths : List String) : WorkerPool where
  running := paths.zipIdx.map fun (path, place) => (place, .waiting path)
  finished := []

/-- The results in the order of the hosts. -/
def results (pool : WorkerPool) : List HostResult :=
  (pool.finished.mergeSort fun a b => decide (a.1 ≤ b.1)).map Prod.snd

end WorkerPool

namespace Batch

/-- The content of a file. -/
def content (b : Batch) (path : String) : Except CommandError Bytes :=
  (b.workspace.content path).run

/-- What a host comes to by what was read from its file. -/
def conclude (b : Batch) (path : String) (content : Except CommandError Bytes) : HostResult := do
  b.verifier.reportOn b.time b.flavors path (← content)

/-- One worker gets on. -/
inductive Step (b : Batch) : WorkerPool → WorkerPool → Prop
  /-- A worker reads its file. -/
  | load (before after : List (Nat × Worker)) (place : Nat) (path : String)
      (finished : List (Nat × HostResult)) :
      Step b ⟨before ++ (place, .waiting path) :: after, finished⟩
        ⟨before ++ (place, .loaded path (b.content path)) :: after, finished⟩
  /-- A worker ends, and its result comes in. -/
  | finish (before after : List (Nat × Worker)) (place : Nat) (path : String)
      (content : Except CommandError Bytes) (finished : List (Nat × HostResult)) :
      Step b ⟨before ++ (place, .loaded path content) :: after, finished⟩
        ⟨before ++ after, finished ++ [(place, b.conclude path content)]⟩

/-- Workers get on, one after the other in some order. -/
abbrev Steps (b : Batch) : WorkerPool → WorkerPool → Prop := Relation.ReflTransGen b.Step

/-- Verifying the hosts may end with this outcome. -/
inductive MayEnd (b : Batch) (paths : List String) : Except CommandError (List HostReport) → Prop
  | intro {pool : WorkerPool} (steps : b.Steps (.start paths) pool) (done : pool.running = []) :
      MayEnd b paths (pool.results.mapM id)

end Batch

namespace Invocation

/-- What several hosts are verified with, and logging as it is then. -/
def prepare (settingsFile flavorsFile : String) (w : Workspace Id) (l : Logging) :
    Except CommandError (TrustVerifier × List SignedFlavor × Logging) :=
  ExceptT.run do
    let s ← Settings.load w settingsFile
    let l ← (s.startLogging w l).adapt .logging
    let v ← s.verifier w false
    return (v, ← SignedFlavor.loadAll w flavorsFile, l)

/-- Doing what a command line asks for may end with this outcome. Only several hosts have workers;
none of these begins before everything is prepared. -/
inductive MayEnd (w : Workspace Id) (time : Int) (l : Logging) :
    Invocation → Except CommandError (Finding × Logging) → Prop
  | verify (settingsFile manifest flavors : String) (skipSignature : Bool) :
      MayEnd w time l ⟨settingsFile, .verify manifest flavors skipSignature⟩
        (run ⟨settingsFile, .verify manifest flavors skipSignature⟩ w time l).run
  | unprepared {settingsFile flavors : String} {e : CommandError} (manifests : List String)
      (failed : prepare settingsFile flavors w l = .error e) :
      MayEnd w time l ⟨settingsFile, .verifyHosts manifests flavors⟩ (.error e)
  | verifyHosts {settingsFile flavorsFile : String} {manifests : List String} {v : TrustVerifier}
      {flavors : List SignedFlavor} {l' : Logging} {outcome : Except CommandError (List HostReport)}
      (prepared : prepare settingsFile flavorsFile w l = .ok (v, flavors, l'))
      (ended : Batch.MayEnd ⟨v, w, time, flavors⟩ manifests outcome) :
      MayEnd w time l ⟨settingsFile, .verifyHosts manifests flavorsFile⟩
        (outcome.map fun reports => (.hosts reports, l'))

end Invocation

end HostTrust
