/-
HostTrust.Proofs.SeveralHosts — verifying several hosts at once is verifying
each of them alone.

What the workers of a batch come to is fixed before they begin: the results
that have come in, and those that the running workers will bring, are at every
moment the same ones in some order (`Batch.Step.outcomes_perm`, and from it
`Batch.outcomes_perm_of_steps`). Each step leaves less to do, so the batch ends
however the workers get on, and then the results in the order of the hosts are
the ones that the hosts have alone. A command on several hosts therefore
succeeds exactly when the command on each of them does, reports what they
report in their order, and fails as the first of them that fails.
-/
import HostTrust.Command.Workers
import HostTrust.Proofs.Outcome
import Mathlib.Data.List.Nodup

namespace HostTrust

open Outcome

/-! ## What a worker comes to -/

namespace Batch

variable [CertificateLibrary]

/-- What a host comes to when it is verified alone. -/
def outcome (b : Batch) (path : String) : HostResult :=
  (b.verifier.verifyHost b.workspace b.time b.flavors path).run

theorem outcome_eq_conclude (b : Batch) (path : String) :
    b.outcome path = b.conclude path (b.content path) := by
  simp only [outcome, TrustVerifier.verifyHost, conclude, content, run_bind_eq, run_liftExcept_eq]

/-- What a worker brings in the end. -/
def workerOutcome (b : Batch) : Worker → HostResult
  | .waiting path => b.outcome path
  | .loaded path content => b.conclude path content

/-- The results that have come in and those that the running workers will bring. -/
def outcomes (b : Batch) (pool : WorkerPool) : List (Nat × HostResult) :=
  pool.running.map (fun (place, worker) => (place, b.workerOutcome worker)) ++ pool.finished

/-- What the hosts come to, each with its place. -/
def numbered (b : Batch) (paths : List String) : List (Nat × HostResult) :=
  paths.zipIdx.map fun (path, place) => (place, b.outcome path)

variable {b : Batch} {paths : List String} {pool pool' : WorkerPool}

theorem outcomes_start (b : Batch) (paths : List String) :
    b.outcomes (.start paths) = b.numbered paths := by
  simp [outcomes, WorkerPool.start, numbered, workerOutcome]

/-! ## Steps, and what they leave as it is -/

/-- A step changes no outcome: a worker that reads its file goes on to the same end, and one that
ends only hands over what it comes to. -/
theorem Step.outcomes_perm (h : b.Step pool pool') : (b.outcomes pool').Perm (b.outcomes pool) := by
  cases h with
  | load before after place path finished =>
    simp only [outcomes, List.map_append, List.map_cons, workerOutcome, outcome_eq_conclude]
    exact .refl _
  | finish before after place path content finished =>
    simp only [outcomes, List.map_append, List.map_cons, workerOutcome, List.append_assoc,
      List.cons_append]
    -- what the worker comes to moves from its place among the running to the end
    refine List.Perm.append_left _ ?_
    rw [← List.append_assoc]
    exact List.perm_append_singleton _ _

theorem outcomes_perm_of_steps (h : b.Steps pool pool') :
    (b.outcomes pool').Perm (b.outcomes pool) := by
  induction h with
  | refl => exact .refl _
  | tail _ step ih => exact step.outcomes_perm.trans ih

/-! ## Every batch ends -/

def isWaiting : Worker → Bool
  | .waiting _ => true
  | .loaded _ _ => false

/-- The steps that the workers have before them: each has to end, and those that wait have to read
their files. -/
def work (pool : WorkerPool) : Nat :=
  pool.running.length + pool.running.countP fun (_, worker) => isWaiting worker

theorem Step.work_eq (h : b.Step pool pool') : work pool = work pool' + 1 := by
  cases h with
  | load | finish =>
    simp only [work, List.length_append, List.length_cons, List.countP_append, List.countP_cons,
      isWaiting, Bool.false_eq_true, if_true, if_false]
    omega

/-- The workers cannot get on forever. -/
theorem wellFounded_step (b : Batch) : WellFounded fun pool' pool => b.Step pool pool' := by
  refine Subrelation.wf ?_ (measure work).wf
  intro pool' pool step
  have less := step.work_eq
  show work pool' < work pool
  omega

/-- As long as a worker runs, one can get on. -/
theorem exists_step (b : Batch) (h : pool.running ≠ []) : ∃ pool', b.Step pool pool' := by
  obtain ⟨running, finished⟩ := pool
  cases running with
  | nil => exact absurd rfl h
  | cons first rest =>
    obtain ⟨place, worker⟩ := first
    cases worker with
    | waiting path => exact ⟨_, .load [] rest place path finished⟩
    | loaded path content => exact ⟨_, .finish [] rest place path content finished⟩

/-- From any moment on the workers can get to their end. -/
theorem exists_end (b : Batch) (pool : WorkerPool) :
    ∃ pool', b.Steps pool pool' ∧ pool'.running = [] := by
  induction pool using b.wellFounded_step.induction with
  | _ pool ih =>
    by_cases done : pool.running = []
    · exact ⟨pool, .refl, done⟩
    · obtain ⟨next, step⟩ := b.exists_step done
      obtain ⟨pool', steps, done'⟩ := ih next step
      exact ⟨pool', .head step steps, done'⟩

/-! ## The results in the order of the hosts -/

theorem map_fst_numbered (b : Batch) (paths : List String) :
    (b.numbered paths).map Prod.fst = List.range' 0 paths.length := by
  rw [numbered, List.map_map, ← List.zipIdx_map_snd]
  rfl

theorem map_snd_numbered (b : Batch) (paths : List String) :
    (b.numbered paths).map Prod.snd = paths.map b.outcome := by
  conv_rhs => rw [← List.zipIdx_map_fst 0 paths]
  rw [numbered, List.map_map, List.map_map]
  rfl

/-- Whatever order results come in, sorting them by place puts them in the order of the hosts. -/
theorem results_of_perm (h : pool.finished.Perm (b.numbered paths)) :
    pool.results = paths.map b.outcome := by
  have increasing : ((b.numbered paths).map Prod.fst).Pairwise (· < ·) := by
    rw [map_fst_numbered]
    exact List.pairwise_lt_range' 1
  have distinct : ((b.numbered paths).map Prod.fst).Nodup := increasing.imp fun h => by omega
  have ordered : (b.numbered paths).Pairwise fun x y => x.1 ≤ y.1 :=
    (List.pairwise_map.mp increasing).imp fun h => by omega
  have sorted : (pool.finished.mergeSort fun x y => decide (x.1 ≤ y.1)).Pairwise
      fun x y => x.1 ≤ y.1 := by
    refine List.Pairwise.imp of_decide_eq_true (List.pairwise_mergeSort ?_ ?_ _)
    · intro x y z
      simp only [decide_eq_true_eq]
      omega
    · intro x y
      simp only [Bool.or_eq_true, decide_eq_true_eq]
      omega
  have perm := (List.mergeSort_perm pool.finished fun x y => decide (x.1 ≤ y.1)).trans h
  rw [WorkerPool.results, ← map_snd_numbered]
  congr 1
  refine perm.eq_of_pairwise ?_ sorted ordered
  intro x y hx hy xy yx
  exact List.inj_on_of_nodup_map distinct (perm.mem_iff.mp hx) hy (by omega)

/-- In whatever order the workers get on, the batch ends as if the hosts were verified one after
the other. -/
theorem mayEnd_iff (b : Batch) (paths : List String)
    (outcome : Except CommandError (List HostReport)) :
    b.MayEnd paths outcome ↔ outcome = paths.mapM b.outcome := by
  have ended : ∀ pool, b.Steps (.start paths) pool → pool.running = [] →
      pool.results.mapM id = paths.mapM b.outcome := by
    intro pool steps done
    have perm := outcomes_perm_of_steps steps
    -- nothing runs, so all outcomes have come in
    rw [outcomes_start, outcomes, done, List.map_nil, List.nil_append] at perm
    rw [results_of_perm perm, List.mapM_map]
    rfl
  constructor
  · rintro ⟨steps, done⟩
    exact ended _ steps done
  · rintro rfl
    obtain ⟨pool, steps, done⟩ := b.exists_end (.start paths)
    rw [← ended pool steps done]
    exact .intro steps done

end Batch

/-! ## Commands on several hosts -/

theorem TrustVerifier.run_verifyHosts [CertificateLibrary] (v : TrustVerifier) (w : Workspace Id)
    (time : Int) (flavors : List SignedFlavor) (paths : List String) :
    (v.verifyHosts w time flavors paths).run =
      paths.mapM (Batch.outcome ⟨v, w, time, flavors⟩) := by
  simp only [TrustVerifier.verifyHosts, run_bind_eq, run_liftExcept_eq, ExceptT.run_lift]
  show List.mapM id (Id.run (List.mapM _ paths)) = _
  rw [List.idRun_mapM, List.mapM_map]
  rfl

namespace Invocation

variable [CertificateLibrary] {w : Workspace Id} {time : Int} {l : Logging}
  {settingsFile flavors : String} {manifests : List String}

/-- What verifying one host comes to; the signatures of the flavors are checked unless the settings
say otherwise. -/
def alone (settingsFile flavors : String) (w : Workspace Id) (time : Int) (l : Logging)
    (manifest : String) : Except CommandError (Finding × Logging) :=
  (run ⟨settingsFile, .verify manifest flavors false⟩ w time l).run

/-- What verifying several hosts one after the other comes to. -/
def together (settingsFile flavors : String) (w : Workspace Id) (time : Int) (l : Logging)
    (manifests : List String) : Except CommandError (Finding × Logging) :=
  (run ⟨settingsFile, .verifyHosts manifests flavors⟩ w time l).run

/-- A command on one host prepares, and then verifies the host. -/
theorem alone_eq (manifest : String) :
    alone settingsFile flavors w time l manifest =
      prepare settingsFile flavors w l >>= fun (v, fs, l') =>
        (fun r => (.host r, l')) <$> Batch.outcome ⟨v, w, time, fs⟩ manifest := by
  simp only [alone, run, prepare, Command.perform, Batch.outcome, run_bind_eq, run_pure_eq,
    bind_assoc, pure_bind, map_eq_pure_bind]

/-- A command on several hosts prepares in the same way, and then verifies each of them. -/
theorem together_eq :
    together settingsFile flavors w time l manifests =
      prepare settingsFile flavors w l >>= fun (v, fs, l') =>
        (fun rs => (.hosts rs, l')) <$> manifests.mapM (Batch.outcome ⟨v, w, time, fs⟩) := by
  simp only [together, run, prepare, Command.perform, TrustVerifier.run_verifyHosts, run_bind_eq,
    run_pure_eq, bind_assoc, pure_bind, map_eq_pure_bind]

/-- In whatever order the workers get on, the command ends as if they worked one after the other,
and it can end so. -/
theorem mayEnd_verifyHosts_iff {outcome : Except CommandError (Finding × Logging)} :
    MayEnd w time l ⟨settingsFile, .verifyHosts manifests flavors⟩ outcome ↔
      outcome = together settingsFile flavors w time l manifests := by
  rw [together_eq]
  constructor
  · intro ended
    cases ended with
    | unprepared _ failed =>
      rw [failed]
      rfl
    | verifyHosts prepared ended =>
      rw [prepared, (Batch.mayEnd_iff ..).mp ended]
      rfl
  · rintro rfl
    cases prepared : prepare settingsFile flavors w l with
    | error e => exact .unprepared manifests prepared
    | ok basis => exact .verifyHosts prepared ((Batch.mayEnd_iff ..).mpr rfl)

/-- If the settings ask for no logging, logging stays as it is. -/
theorem logging_of_alone {manifest : String} {finding : Finding} {l' : Logging}
    (quiet : ∀ s, (Settings.load w settingsFile).run = .ok s → s.logging = none)
    (ok : alone settingsFile flavors w time l manifest = .ok (finding, l')) : l' = l := by
  simp only [alone, run, run_bind_eq, run_pure_eq, bind_eq_ok_iff, pure_eq_ok_iff] at ok
  obtain ⟨s, loaded, _, started, _, -, same⟩ := ok
  simp only [Settings.startLogging, quiet s loaded] at started
  obtain rfl : l = _ := Except.ok.inj started
  exact (Prod.mk.inj same).2.symm

/-- What keeps a command from preparing keeps it from verifying any host. -/
theorem alone_of_prepare_eq_error {e : CommandError}
    (failed : prepare settingsFile flavors w l = .error e) (manifest : String) :
    alone settingsFile flavors w time l manifest = .error e := by
  rw [alone_eq, failed]
  rfl

/-- The command on several hosts and the commands on each of them, in order, fail with the same
error or report the same on every host. -/
theorem together_cases (settingsFile flavors : String) (w : Workspace Id) (time : Int)
    (l : Logging) (some : manifests ≠ []) :
    (∃ e, together settingsFile flavors w time l manifests = .error e ∧
      manifests.mapM (alone settingsFile flavors w time l) = .error e) ∨
    ∃ reports l', together settingsFile flavors w time l manifests = .ok (.hosts reports, l') ∧
      manifests.mapM (alone settingsFile flavors w time l) =
        .ok (reports.map fun r => (.host r, l')) := by
  cases prepared : prepare settingsFile flavors w l with
  | error e =>
    obtain ⟨first, rest, rfl⟩ := List.exists_cons_of_ne_nil some
    refine .inl ⟨e, by rw [together_eq, prepared]; rfl, ?_⟩
    rw [List.mapM_cons, alone_of_prepare_eq_error prepared]
    rfl
  | ok basis =>
    obtain ⟨v, fs, l'⟩ := basis
    have each : manifests.mapM (alone settingsFile flavors w time l) =
        List.map (fun r => (.host r, l')) <$>
          manifests.mapM (Batch.outcome ⟨v, w, time, fs⟩) := by
      rw [← mapM_map_result]
      refine mapM_congr fun manifest _ => ?_
      rw [alone_eq, prepared]
      rfl
    have all : together settingsFile flavors w time l manifests =
        (fun rs => (.hosts rs, l')) <$> manifests.mapM (Batch.outcome ⟨v, w, time, fs⟩) := by
      rw [together_eq, prepared]
      rfl
    rw [all, each]
    cases manifests.mapM (Batch.outcome ⟨v, w, time, fs⟩) with
    | error e => exact .inl ⟨e, rfl, rfl⟩
    | ok reports => exact .inr ⟨reports, l', rfl, rfl⟩

/-- A command on several hosts succeeds exactly when it does on each of them. -/
theorem exists_together_eq_ok_iff (some : manifests ≠ []) :
    (∃ found, together settingsFile flavors w time l manifests = .ok found) ↔
      ∀ m ∈ manifests, ∃ found, alone settingsFile flavors w time l m = .ok found := by
  rw [← exists_mapM_ok_iff]
  rcases together_cases settingsFile flavors w time l some with
    ⟨e, failed, first⟩ | ⟨reports, l', found, each⟩
  · simp [failed, first]
  · simp [found, each]

/-- What is found on several hosts is what is found on each of them, in their order. -/
theorem findings_of_together_eq_ok (some : manifests ≠ [])
    (quiet : ∀ s, (Settings.load w settingsFile).run = .ok s → s.logging = none)
    {finding : Finding} {l' : Logging}
    (ok : together settingsFile flavors w time l manifests = .ok (finding, l')) :
    l' = l ∧ ∃ reports : List HostReport, finding = .hosts reports ∧
      List.Forall₂ (fun m r => alone settingsFile flavors w time l m = .ok (.host r, l))
        manifests reports := by
  rcases together_cases settingsFile flavors w time l some with
    ⟨e, failed, -⟩ | ⟨reports, _, found, each⟩
  · rw [ok] at failed
    cases failed
  · obtain ⟨rfl, rfl⟩ := Prod.mk.inj (Except.ok.inj (ok.symm.trans found))
    have inOrder := mapM_eq_ok_iff.mp each
    rw [List.forall₂_map_right_iff] at inOrder
    obtain rfl : l' = l := by
      obtain ⟨m, rest, rfl⟩ := List.exists_cons_of_ne_nil some
      cases inOrder with
      | cons first _ => exact logging_of_alone quiet first
    exact ⟨rfl, reports, rfl, inOrder⟩

/-- A command on several hosts fails before any of them is verified, as it then does on every host,
or as it does on the first of them on which it fails. -/
theorem first_of_together_eq_error (some : manifests ≠ []) {e : CommandError}
    (failed : together settingsFile flavors w time l manifests = .error e) :
    (prepare settingsFile flavors w l = .error e ∧
      ∀ m, alone settingsFile flavors w time l m = .error e) ∨
    (∃ basis, prepare settingsFile flavors w l = .ok basis) ∧
      ∃ before m after, manifests = before ++ m :: after ∧
        (∀ m' ∈ before, ∃ found, alone settingsFile flavors w time l m' = .ok found) ∧
        alone settingsFile flavors w time l m = .error e := by
  rcases together_cases settingsFile flavors w time l some with
    ⟨_, failed', first⟩ | ⟨reports, l', found, -⟩
  · obtain rfl := Except.error.inj (failed'.symm.trans failed)
    obtain ⟨before, m, after, split, ok, stops⟩ := mapM_eq_error_iff.mp first
    cases prepared : prepare settingsFile flavors w l with
    | error e' =>
      have common : ∀ m, alone settingsFile flavors w time l m = .error e' :=
        alone_of_prepare_eq_error prepared
      obtain rfl := Except.error.inj ((common m).symm.trans stops)
      exact .inl ⟨rfl, common⟩
    | ok basis => exact .inr ⟨⟨basis, rfl⟩, before, m, after, split, ok, stops⟩
  · rw [failed] at found
    cases found

end Invocation

/-- The verdict on a host stands in what is written about it, and in the report that is part of
that. -/
theorem HostReport.toJson_trusted (r : HostReport) :
    r.toJson.get? "trusted" = some (.bool r.trusted) ∧
      (r.toJson.get? "report").bind (Json.get? "trusted") = some (.bool r.trusted) := by
  have written : (TrustReport.format.write r.report).get? "trusted" = some (.bool r.trusted) := rfl
  by_cases unnamed : r.hostName.isEmpty = true
  · simp [toJson, Json.get?, unnamed, List.lookup_cons, ← written]
  · simp [toJson, Json.get?, unnamed, List.lookup_cons, ← written]

namespace Invocation

/-- Several hosts that are verified at once, their workers getting on in whatever order, are
verified as each of them is alone. The command ends. It succeeds exactly when each host's does, and
then it finds what they find, in their order; the verdict on each host stands in its output and in
its report. Otherwise it fails as they all do, before any host is verified, or as the first of them
does. -/
theorem mayEnd_as_alone [CertificateLibrary] (w : Workspace Id) (time : Int) (l : Logging)
    (settingsFile flavors : String) {manifests : List String} (some : manifests ≠ [])
    (quiet : ∀ s, (Settings.load w settingsFile).run = .ok s → s.logging = none) :
    (∃ outcome, MayEnd w time l ⟨settingsFile, .verifyHosts manifests flavors⟩ outcome) ∧
    ∀ outcome, MayEnd w time l ⟨settingsFile, .verifyHosts manifests flavors⟩ outcome →
      ((∃ found, outcome = .ok found) ↔
        ∀ m ∈ manifests, ∃ found, alone settingsFile flavors w time l m = .ok found) ∧
      (∀ finding l', outcome = .ok (finding, l') → l' = l ∧ ∃ findings : List Finding,
        List.Forall₂ (fun m f => alone settingsFile flavors w time l m = .ok (f, l))
          manifests findings ∧
        finding.toJson = .list (findings.map Finding.toJson) ∧
        finding.trusted = findings.all Finding.trusted ∧
        ∀ f ∈ findings, f.toJson.get? "trusted" = Option.some (.bool f.trusted) ∧
          (f.toJson.get? "report").bind (Json.get? "trusted") = Option.some (.bool f.trusted)) ∧
      (∀ e, outcome = .error e →
        (prepare settingsFile flavors w l = .error e ∧
          ∀ m, alone settingsFile flavors w time l m = .error e) ∨
        (∃ basis, prepare settingsFile flavors w l = .ok basis) ∧
          ∃ before m after, manifests = before ++ m :: after ∧
            (∀ m' ∈ before, ∃ found, alone settingsFile flavors w time l m' = .ok found) ∧
            alone settingsFile flavors w time l m = .error e) := by
  refine ⟨⟨_, mayEnd_verifyHosts_iff.mpr rfl⟩, fun outcome ended => ?_⟩
  obtain rfl := mayEnd_verifyHosts_iff.mp ended
  refine ⟨exists_together_eq_ok_iff some, ?_, fun _ => first_of_together_eq_error some⟩
  intro finding l' ok
  obtain ⟨rfl, reports, rfl, inOrder⟩ := findings_of_together_eq_ok some quiet ok
  refine ⟨rfl, reports.map .host, List.forall₂_map_right_iff.mpr inOrder, ?_, ?_, ?_⟩
  · simp only [Finding.toJson, List.map_map]
    rfl
  · simp only [Finding.trusted, List.all_map]
    rfl
  · intro f hf
    obtain ⟨r, -, rfl⟩ := List.mem_map.mp hf
    exact r.toJson_trusted

end Invocation

namespace Sample

open Invocation

/-- A flavor for the operating system, with one value of a register. -/
def osFlavorJson : Json :=
  .object [
    ("flavor", .object [
      ("meta", .object [
        ("id", .text (String.ofList (List.replicate 32 '0'))),
        ("vendor", .text "INTEL"),
        ("description", .object [("flavor_part", .text "OS"), ("tpm_version", .text "2.0")])]),
      ("pcrs", .list [.object [
        ("pcr", .object [("bank", .text "SHA1"), ("index", .nat 0)]),
        ("measurement", .text (String.ofList (List.replicate 40 '0'))),
        ("pcr_matches", .bool true)]])]),
    ("signature", .text "")]

/-- A host with this value. -/
def hostJson : Json :=
  .object [("pcr_manifest", .object [("sha1pcrs", .list [.object [
    ("pcr_bank", .text "SHA1"), ("index", .nat 0),
    ("value", .text (String.ofList (List.replicate 40 '0')))]])])]

/-- Settings that do not ask for signatures, the flavor, the host, and another one that reports
nothing. -/
def files : List (String × Bytes) :=
  [("set", Text.encode "verifier: \x7bskip_flavor_signature_verification: true\x7d"),
    ("flavor", osFlavorJson.toBytes), ("host", hostJson.toBytes),
    ("bare", (Json.object [("host_info", .object [])]).toBytes)]

def desk : Workspace Id where
  read path := ((files.lookup path).map pure).getD (throw .notFound)
  makeDirectory _ := throw .exists
  isDirectory _ := true
  makeFile _ := throw .exists
  findUpward _ := none
  environment _ := none

theorem quiet_desk : ∀ s, (Settings.load desk "set").run = .ok s → s.logging = none := by
  intro s loaded
  obtain ⟨s', loaded', quiet⟩ : ∃ s', (Settings.load desk "set").run = Except.ok s' ∧
      (s'.logging == none) = true := exists_ok_of_map_eq_some (by decide +kernel)
  obtain rfl : s' = s := Except.ok.inj (loaded'.symm.trans loaded)
  exact eq_of_beq quiet

/-- A host that is not trusted keeps no other one from being reported. -/
theorem hosts_on_desk :
    ["host", "bare", "host"] ≠ [] ∧
    (∀ s, (Settings.load desk "set").run = .ok s → s.logging = none) ∧
    ∃ finding, finding.trusted = false ∧
      MayEnd desk 0 .off ⟨"set", .verifyHosts ["host", "bare", "host"] "flavor"⟩
        (.ok (finding, .off)) := by
  have some : ["host", "bare", "host"] ≠ [] := by decide
  obtain ⟨good, host, -⟩ : ∃ found, alone "set" "flavor" desk 0 .off "host" = .ok found ∧
      found.1.trusted = true := exists_ok_of_map_eq_some (by decide +kernel)
  obtain ⟨bad, bare, distrusted⟩ : ∃ found, alone "set" "flavor" desk 0 .off "bare" = .ok found ∧
      (!found.1.trusted) = true := exists_ok_of_map_eq_some (by decide +kernel)
  obtain ⟨⟨outcome, ended⟩, each⟩ := mayEnd_as_alone desk 0 .off "set" "flavor" some quiet_desk
  obtain ⟨succeeds, reported, -⟩ := each outcome ended
  have all : ∀ m ∈ ["host", "bare", "host"], ∃ found,
      alone "set" "flavor" desk 0 .off m = .ok found := by
    intro m hm
    obtain rfl | rfl | rfl : m = "host" ∨ m = "bare" ∨ m = "host" := by simpa using hm
    · exact ⟨good, host⟩
    · exact ⟨bad, bare⟩
    · exact ⟨good, host⟩
  obtain ⟨⟨finding, l⟩, rfl⟩ := succeeds.mpr all
  obtain ⟨rfl, findings, inOrder, -, verdict, -⟩ := reported _ _ rfl
  refine ⟨some, quiet_desk, finding, ?_, ended⟩
  rcases inOrder with _ | ⟨-, _ | ⟨second, -⟩⟩
  obtain rfl := Except.ok.inj (bare.symm.trans second)
  rw [verdict, List.all_eq_false]
  exact ⟨_, .tail _ (.head _), by simpa using distrusted⟩

end Sample

end HostTrust
