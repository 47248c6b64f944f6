/-
HostTrust.Proofs.VerifiedReports — the report of a verification can be kept as JSON
and read again.

Rules are checks, and the result of a check is one that can be read back: what it
expects is written with unique keys, since a structure whose fields have different
names is (`Format.uniqueKeys_record`), and an index in a fault is that of a register
(`Check.indicesFit_of_findings`, one lemma for each thing that is inspected). A report
holds the results of its rules and those about missing parts, so it is restored, as
manifests and reports that were read are (`readJson_write_of_read_or_verified`).
-/
import HostTrust.Proofs.Agreement
import HostTrust.Proofs.ReportRoundTrip
import HostTrust.Proofs.Validity

namespace HostTrust

open Json Json.Format Outcome

/-! ## Written forms with unique keys -/

namespace Json

/-- Each field writes its value with unique keys. -/
def Fields.WritesUnique : {ts : List Type} → Fields ts → Row ts → Prop
  | _, .nil, () => True
  | _, .cons field rest, (a, row) => UniqueKeys (field.format.write a) ∧ WritesUnique rest row

theorem Fields.keys_write_sublist {ts : List Type} (fields : Fields ts) (row : Row ts) :
    ((fields.write row).map Prod.fst).Sublist fields.names := by
  induction fields with
  | nil => exact .slnil
  | cons field rest ih =>
    obtain ⟨a, row⟩ := row
    rw [write, names]
    split
    · exact (ih row).cons _
    · exact (ih row).cons_cons _

theorem Fields.membersUnique_write {ts : List Type} {fields : Fields ts} {row : Row ts}
    (h : fields.WritesUnique row) : MembersUnique (fields.write row) := by
  induction fields with
  | nil => trivial
  | cons field rest ih =>
    obtain ⟨a, row⟩ := row
    rw [write]
    split
    · exact ih h.2
    · exact ⟨h.1, ih h.2⟩

namespace Format

variable {α : Type} {f : Format α}

theorem uniqueKeys_record {ts : List Type} {fields : Fields ts} {build : Row ts → α}
    {parts : α → Row ts} {a : α} (nodup : fields.names.Nodup)
    (h : fields.WritesUnique (parts a)) : UniqueKeys ((fields.record build parts).write a) :=
  ⟨nodup.sublist (fields.keys_write_sublist _), Fields.membersUnique_write h⟩

theorem uniqueKeys_via {β : Type} {make : α → Except Misfit β} {parts : β → α} {b : β}
    (h : UniqueKeys (f.write (parts b))) : UniqueKeys ((via f make parts).write b) := h

theorem uniqueKeys_list {as : List α} (h : ∀ a ∈ as, UniqueKeys (f.write a)) :
    UniqueKeys (f.list.write as) := by
  show ItemsUnique (as.map f.write)
  induction as with
  | nil => trivial
  | cons a rest ih => exact ⟨h a (.head _), ih fun b hb => h b (.tail _ hb)⟩

theorem uniqueKeys_optional {o : Option α} (h : ∀ a ∈ o, UniqueKeys (f.write a)) :
    UniqueKeys (f.optional.write o) := by
  cases o with
  | none => trivial
  | some a => exact h a rfl

end Format

end Json

theorem Pcr.uniqueKeys_write (p : Pcr) : UniqueKeys (Pcr.format.write p) :=
  uniqueKeys_via (uniqueKeys_record (by decide) ⟨trivial, trivial, trivial⟩)

theorem PcrValue.uniqueKeys_write (v : PcrValue) : UniqueKeys (PcrValue.format.write v) :=
  uniqueKeys_via (uniqueKeys_record (by decide) ⟨trivial, trivial, trivial, trivial⟩)

theorem Event.uniqueKeys_write (e : Event) : UniqueKeys (Event.format.write e) :=
  uniqueKeys_record (by decide) ⟨trivial, trivial, uniqueKeys_list fun _ _ => trivial, trivial,
    trivial⟩

theorem EventLog.uniqueKeys_write (l : EventLog) : UniqueKeys (EventLog.format.write l) :=
  uniqueKeys_record (by decide) ⟨l.pcr.uniqueKeys_write,
    uniqueKeys_list fun e _ => e.uniqueKeys_write, trivial⟩

theorem Measurement.uniqueKeys_write (m : Measurement) :
    UniqueKeys (Measurement.format.write m) :=
  uniqueKeys_record (by decide) ⟨trivial, trivial, trivial, uniqueKeys_optional fun _ _ => trivial,
    uniqueKeys_optional fun _ _ => trivial, trivial⟩

/-! ## Reports of a verification -/

namespace Check

/-- What a check expects is written so that it can be read back. -/
theorem expected_readable {c : Check} {v : Json} (h : v ∈ c.expected) :
    v ≠ .null ∧ UniqueKeys v := by
  cases c with
  | pcrValue e | assetTag e =>
    obtain rfl := Option.some.inj h
    exact ⟨Json.noConfusion, e.uniqueKeys_write⟩
  | equalEvents e _ | includedEvents e =>
    obtain rfl := Option.some.inj h
    exact ⟨Json.noConfusion, e.uniqueKeys_write⟩
  | replay p =>
    obtain rfl := Option.some.inj h
    exact ⟨Json.noConfusion, p.uniqueKeys_write⟩
  | aikCertificate | tagCertificate | flavorSignature => cases h
  | measurementAlgorithm =>
    have keys : ["flavor_id", "digest_algorithm"].Nodup := by decide
    obtain rfl := Option.some.inj h
    exact ⟨Json.noConfusion, keys, trivial, trivial, trivial⟩
  | cumulativeHash =>
    have keys : ["flavor_id", "cumulative_hash"].Nodup := by decide
    obtain rfl := Option.some.inj h
    exact ⟨Json.noConfusion, keys, trivial, trivial, trivial⟩
  | measurements _ ms =>
    obtain rfl := Option.some.inj h
    exact ⟨Json.noConfusion, uniqueKeys_list fun m _ => m.uniqueKeys_write⟩

end Check

/-- The indices that the faults name are those of registers. -/
def IndicesFit (faults : List Fault) : Prop := ∀ f ∈ faults, f.IndexFits

namespace IndicesFit

variable {faults faults' : List Fault}

theorem nil : IndicesFit [] := fun _ h => absurd h List.not_mem_nil

/-- A fault that names no index. -/
theorem unplaced {f : Fault} (h : f.pcrIndex = none) : IndicesFit [f] := by
  intro g hg n given
  obtain rfl := List.mem_singleton.mp hg
  rw [h] at given
  cases given

/-- A fault about a register names the index of the register. -/
theorem placed {f : Fault} (pcr : Pcr) (h : f.pcrIndex = some pcr.index.val) :
    IndicesFit [f] := by
  intro g hg n given
  obtain rfl := List.mem_singleton.mp hg
  rw [h] at given
  obtain rfl := Option.some.inj given
  exact Nat.lt_of_lt_of_le pcr.index.isLt (by decide)

theorem append (h : IndicesFit faults) (h' : IndicesFit faults') :
    IndicesFit (faults ++ faults') := by
  intro f hf
  exact (List.mem_append.mp hf).elim (h f) (h' f)

/-- A fault that is found only in some case. -/
theorem ite {c : Prop} [Decidable c] (h : IndicesFit faults) (h' : IndicesFit faults') :
    IndicesFit (if c then faults else faults') := by
  split
  · exact h
  · exact h'

end IndicesFit

/-! Faults of registers name the register. -/

theorem PcrManifest.indicesFit_valueFaults (pcrs : PcrManifest) (expected : PcrValue) :
    IndicesFit (pcrs.valueFaults expected) := by
  unfold valueFaults
  split
  · exact .placed expected.pcr rfl
  · exact .ite .nil (.placed expected.pcr rfl)

theorem PcrManifest.indicesFit_replayFaults (pcrs : PcrManifest) (pcr : Pcr) :
    IndicesFit (pcrs.replayFaults pcr) := by
  unfold replayFaults
  dsimp only
  split
  · exact .placed pcr rfl
  · split
    · exact .placed pcr rfl
    · split
      · exact .ite .nil (.placed pcr rfl)
      · exact .placed pcr rfl

theorem Fault.indicesFit_ifAny {fault : Pcr → List Event → Fault} {pcr : Pcr}
    (h : ∀ events, (fault pcr events).pcrIndex = some pcr.index.val) (events : List Event) :
    IndicesFit (Fault.ifAny fault pcr events) :=
  .ite .nil (.placed pcr (h events))

theorem PcrManifest.indicesFit_inspectLog (pcrs : PcrManifest) (pcr : Pcr)
    {inspect : EventLog → Findings} (h : ∀ log, IndicesFit (inspect log).faults) :
    IndicesFit (pcrs.inspectLog pcr inspect).faults := by
  unfold inspectLog
  split
  · exact h _
  · exact .placed pcr rfl

theorem HostManifest.indicesFit_inspectPcrs (m : HostManifest) {inspect : PcrManifest → Findings}
    (h : ∀ pcrs, IndicesFit (inspect pcrs).faults) :
    IndicesFit (m.inspectPcrs inspect).faults := by
  unfold inspectPcrs
  split
  · exact h _
  · exact .unplaced rfl

/-! Other faults name no register. -/

section

variable [CertificateLibrary]

theorem Certificate.indicesFit_faultsAt {c : Certificate} {use : CertificateUse}
    {authorities : CertificatePool} {time : Int} {faults : List Fault}
    (h : c.faultsAt use authorities time = .ok faults) : IndicesFit faults := by
  obtain ⟨trusted, validity, -, -, rfl⟩ := faultsAt_eq_ok_iff.mp h
  refine .append (.ite .nil (.unplaced rfl)) ?_
  cases validity with
  | valid => exact .nil
  | expired | notYetValid => exact .unplaced rfl

theorem HostManifest.indicesFit_aikFaults {m : HostManifest} {authorities : CertificatePool}
    {time : Int} {faults : List Fault} (h : m.aikFaults authorities time = .ok faults) :
    IndicesFit faults := by
  unfold aikFaults at h
  split at h
  · obtain rfl := pure_eq_ok_iff.mp h
    exact .unplaced rfl
  · obtain ⟨c, -, h⟩ := bind_eq_ok_iff.mp h
    exact Certificate.indicesFit_faultsAt h

theorem Certificate.indicesFit_tagFaults {c : Option Certificate} {authorities : CertificatePool}
    {time : Int} {faults : List Fault} (h : tagFaults c authorities time = .ok faults) :
    IndicesFit faults := by
  unfold tagFaults at h
  split at h
  · obtain rfl := pure_eq_ok_iff.mp h
    exact .unplaced rfl
  · exact indicesFit_faultsAt h

theorem FlavorSignature.indicesFit_faultsOf {s : FlavorSignature} {signer : Certificate}
    {faults : List Fault} (h : s.faultsOf signer = .ok faults) : IndicesFit faults := by
  obtain ⟨trusted, -, h⟩ := bind_eq_ok_iff.mp h
  cases trusted with
  | false =>
    obtain rfl := pure_eq_ok_iff.mp h
    exact .unplaced rfl
  | true =>
    obtain ⟨signed, -, h⟩ := bind_eq_ok_iff.mp h
    obtain rfl := pure_eq_ok_iff.mp h
    exact .ite .nil (.unplaced rfl)

theorem FlavorSignature.indicesFit_faults {s : FlavorSignature} {faults : List Fault}
    (h : s.faults = .ok faults) : IndicesFit faults := by
  unfold FlavorSignature.faults at h
  split at h
  · obtain rfl := pure_eq_ok_iff.mp h
    exact .unplaced rfl
  · split at h
    · obtain rfl := pure_eq_ok_iff.mp h
      exact .unplaced rfl
    · exact indicesFit_faultsOf h

end

theorem HostManifest.indicesFit_inspectLog {m : HostManifest} {flavor : Uuid}
    {inspect : MeasurementLog → Except VerificationError (List Fault)} {faults : List Fault}
    (each : ∀ log faults, inspect log = .ok faults → IndicesFit faults)
    (h : m.inspectLog flavor inspect = .ok faults) : IndicesFit faults := by
  obtain ⟨found, -, h⟩ := bind_eq_ok_iff.mp h
  cases found with
  | some log => exact each log faults h
  | none =>
    obtain rfl := pure_eq_ok_iff.mp h
    exact .unplaced rfl

theorem MeasurementLog.indicesFit_algorithmFaults {log : MeasurementLog} {expected : Bank}
    {faults : List Fault} (h : log.algorithmFaults expected = .ok faults) :
    IndicesFit faults := by
  obtain ⟨actual, -, h⟩ := bind_eq_ok_iff.mp h
  split at h
  · obtain rfl := pure_eq_ok_iff.mp h
    exact .nil
  · obtain rfl := pure_eq_ok_iff.mp h
    exact .unplaced rfl

theorem MeasurementLog.indicesFit_cumulativeFaults (log : MeasurementLog) (flavor : Uuid)
    (expected : String) : IndicesFit (log.cumulativeFaults flavor expected) := by
  unfold cumulativeFaults
  split
  · exact .unplaced rfl
  · exact .ite .nil (.unplaced rfl)

theorem Measurement.indicesFit_faults (flavor : Uuid) (expected actual : List Measurement) :
    IndicesFit (faults flavor expected actual) :=
  ((IndicesFit.ite .nil (.unplaced rfl)).append
    (.ite .nil (.unplaced rfl))).append
    (.ite .nil (.unplaced rfl))

namespace Check

variable [CertificateLibrary]

theorem indicesFit_of_findings {c : Check} {m : HostManifest} {found : Findings}
    (h : c.findings m = .ok found) : IndicesFit found.faults := by
  cases c with
  | pcrValue e | assetTag e =>
    obtain rfl := pure_eq_ok_iff.mp h
    exact m.indicesFit_inspectPcrs fun pcrs => pcrs.indicesFit_valueFaults e
  | equalEvents log exclude =>
    obtain rfl := pure_eq_ok_iff.mp h
    exact m.indicesFit_inspectPcrs fun pcrs => pcrs.indicesFit_inspectLog _ fun actual =>
      (Fault.indicesFit_ifAny (fun _ => rfl) _).append (Fault.indicesFit_ifAny (fun _ => rfl) _)
  | includedEvents log =>
    obtain rfl := pure_eq_ok_iff.mp h
    exact m.indicesFit_inspectPcrs fun pcrs => pcrs.indicesFit_inspectLog _ fun actual =>
      Fault.indicesFit_ifAny (fun _ => rfl) _
  | replay pcr =>
    obtain rfl := pure_eq_ok_iff.mp h
    exact m.indicesFit_inspectPcrs fun pcrs => pcrs.indicesFit_replayFaults pcr
  | aikCertificate authorities time =>
    obtain ⟨faults, read, rfl⟩ := map_eq_ok_iff.mp h
    exact HostManifest.indicesFit_aikFaults read
  | tagCertificate c authorities time =>
    obtain ⟨faults, read, rfl⟩ := map_eq_ok_iff.mp h
    exact Certificate.indicesFit_tagFaults read
  | flavorSignature s =>
    obtain ⟨faults, read, rfl⟩ := map_eq_ok_iff.mp h
    exact FlavorSignature.indicesFit_faults read
  | measurementAlgorithm flavor bank =>
    obtain ⟨faults, read, rfl⟩ := map_eq_ok_iff.mp h
    exact HostManifest.indicesFit_inspectLog
      (fun log faults h => MeasurementLog.indicesFit_algorithmFaults h) read
  | cumulativeHash flavor hash =>
    obtain ⟨faults, read, rfl⟩ := map_eq_ok_iff.mp h
    refine HostManifest.indicesFit_inspectLog (fun log faults h => ?_) read
    obtain rfl := pure_eq_ok_iff.mp h
    exact log.indicesFit_cumulativeFaults flavor hash
  | measurements flavor ms =>
    obtain ⟨faults, read, rfl⟩ := map_eq_ok_iff.mp h
    refine HostManifest.indicesFit_inspectLog (fun log faults h => ?_) read
    obtain rfl := pure_eq_ok_iff.mp h
    exact Measurement.indicesFit_faults flavor ms log.measurements

/-- The result of a check can be read back, about any parts and for any flavor. -/
theorem readable_of_judge {c : Check} {markers : List FlavorPart} {m : HostManifest}
    {r : RuleResult} (h : (c.rule markers).judge m = .ok r) (id : Option Uuid) :
    (r.withFlavorId id).Readable := by
  obtain ⟨found, findings, rfl⟩ := map_eq_ok_iff.mp h
  exact ⟨fun v given => expected_readable given, indicesFit_of_findings findings⟩

end Check

/-- Every rule that a registered builder gives is a check. -/
def BuilderRegistry.GivesChecks [CertificateLibrary] (r : BuilderRegistry) : Prop :=
  ∀ vendor tpm b, r.builder? vendor tpm = some b → ∀ c part rules, b.rules c part = .ok rules →
    ∀ k ∈ rules, ∃ (check : Check) (markers : List FlavorPart), k = check.rule markers

theorem BuilderRegistry.standard_givesChecks [CertificateLibrary] : standard.GivesChecks := by
  intro vendor tpm b registered c part rules h k hk
  have checks : ∀ name uses given, b = .ofChecks name uses given → ∃ (check : Check)
      (markers : List FlavorPart), k = check.rule markers := by
    rintro name uses given rfl
    obtain ⟨cs, -, rfl⟩ := RuleBuilder.exists_checks_of_ofChecks h
    obtain ⟨check, -, rfl⟩ := List.mem_map.mp hk
    exact ⟨check, [part], rfl⟩
  rcases standard_cases registered with ⟨-, rfl⟩ | ⟨-, layout, rfl⟩
  · exact checks _ _ _ rfl
  · exact checks _ _ _ rfl

namespace TrustVerifier

theorem readable_missingPart (part : FlavorPart) : (missingPart part).Readable where
  expected v given := by cases given
  indices := IndicesFit.unplaced rfl

variable [CertificateLibrary] {v : TrustVerifier} {m : HostManifest} {time : Int} {f : SignedFlavor}

/-- The rules of policies and of the signature are checks, so only builders could give others. -/
theorem exists_check_of_rulesFor (registered : v.registry.GivesChecks) {rules : List Rule}
    (h : v.rulesFor m time f = .ok rules) :
    ∀ k ∈ rules, ∃ (check : Check) (markers : List FlavorPart), k = check.rule markers := by
  obtain ⟨part, vendor, tpm, builder, static, derived, -, -, -, found, hstatic, hderived, rfl⟩ :=
    RuleContext.rules_eq_ok_iff.mp h
  intro k hk
  rw [List.mem_append, List.mem_append] at hk
  rcases hk with (hk | hk) | hk
  · exact registered vendor tpm builder found _ part static hstatic k hk
  · unfold RuleContext.policyRules at hderived
    split at hderived
    · obtain ⟨cs, -, made⟩ := bind_eq_ok_iff.mp hderived
      obtain rfl := pure_eq_ok_iff.mp made
      obtain ⟨check, -, rfl⟩ := List.mem_map.mp hk
      exact ⟨check, [part], rfl⟩
    · obtain rfl := pure_eq_ok_iff.mp hderived
      cases hk
  · unfold RuleContext.signatureRules at hk
    split at hk
    · cases hk
    · obtain rfl := List.mem_singleton.mp hk
      exact ⟨_, _, rfl⟩

theorem readable_of_results (registered : v.registry.GivesChecks) {rs : List RuleResult}
    (h : v.results m time f = .ok rs) : ∀ x ∈ rs, x.Readable := by
  obtain ⟨rules, hrules, judged⟩ := results_eq_ok_iff.mp h
  intro x hx
  obtain ⟨k, hk, y, hy, rfl⟩ := exists_left_of_mem judged hx
  obtain ⟨check, markers, rfl⟩ := exists_check_of_rulesFor registered hrules k hk
  exact Check.readable_of_judge hy _

theorem readable_of_verifyFlavorAt (registered : v.registry.GivesChecks) {r : TrustReport}
    (ok : v.verifyFlavorAt m f time = .ok r) : ∀ x ∈ r.results, x.Readable :=
  readable_of_results registered (results_of_verifyFlavorAt ok)

theorem readable_of_verifyAllOfAt (registered : v.registry.GivesChecks)
    {flavors : List SignedFlavor} {r : TrustReport}
    (ok : v.verifyAllOfAt m flavors time = .ok r) : ∀ x ∈ r.results, x.Readable := by
  obtain ⟨-, outcomes, evaluated, -⟩ := verifyAllOfAt_eq_ok_iff.mp ok
  rw [(results_verifyAllOfAt ok evaluated).1]
  intro x hx
  rcases List.mem_append.mp hx with found | missing
  · obtain ⟨o, ho, hx⟩ := List.mem_flatMap.mp found
    obtain ⟨f, -, hf⟩ := exists_left_of_mem evaluated ho
    exact readable_of_results registered hf.2 x hx
  · obtain ⟨part, -, rfl⟩ := List.mem_map.mp missing
    exact readable_missingPart part

/-- **Written evidence is not lost.** A manifest that was read and is consistent, and a report that
was read or that a verification gave, are the same when they are written as values and read again;
the manifest is as consistent as before, and each result is written with its verdict. The rules of
the verification must be checks: one from elsewhere could report that it expects `null`, which is
read as nothing expected. -/
theorem readJson_write_of_read_or_verified (registered : v.registry.GivesChecks) :
    (∀ x : RuleResult, (RuleResult.format.write x).get? "trusted" = some (.bool x.trusted)) ∧
    (∀ source d m, HostManifest.format.read source d = .ok m → m.validate = .ok () →
      ∃ m', HostManifest.format.readJson (HostManifest.format.write m) = .ok m' ∧ m' = m ∧
        m'.validate = .ok ()) ∧
    (∀ source d r, TrustReport.format.read source d = .ok r →
      TrustReport.format.readJson (TrustReport.format.write r) = .ok r) ∧
    (∀ m f time r, v.verifyFlavorAt m f time = .ok r →
      TrustReport.format.readJson (TrustReport.format.write r) = .ok r) ∧
    (∀ m flavors time r, v.verifyAllOfAt m flavors time = .ok r →
      TrustReport.format.readJson (TrustReport.format.write r) = .ok r) := by
  refine ⟨?_, ?_, ?_, ?_, ?_⟩
  · rintro ⟨rule, _ | flavor, trusted, faults, mismatches, verdict⟩ <;> rfl
  · intro source d m read consistent
    exact ⟨m, m.restores, rfl, consistent⟩
  · intro source d r read
    exact TrustReport.restores (TrustReport.readable_of_read read)
  · intro m f time r ok
    exact TrustReport.restores (readable_of_verifyFlavorAt registered ok)
  · intro m flavors time r ok
    exact TrustReport.restores (readable_of_verifyAllOfAt registered ok)

end TrustVerifier

namespace Sample

open TrustVerifier

/-- The host with another value in its register and another log. -/
def tampered : HostManifest :=
  { manifest with
    pcrs := some ⟨[⟨register, "00"⟩], [], .insert .empty .sha1 [⟨register, [event "03"]⟩]⟩ }

set_option maxRecDepth 10000 in
/-- The report on it names the value, the events and the replay, and the part that is missing. -/
theorem tampered_restored : lenient.registry.GivesChecks ∧ ∃ report,
    lenient.verifyAllOfAt tampered [os] moment = .ok report ∧ report.faults.length = 5 ∧
      TrustReport.format.readJson (TrustReport.format.write report) = .ok report := by
  have registered : lenient.registry.GivesChecks := BuilderRegistry.standard_givesChecks
  obtain ⟨report, ok, count⟩ : ∃ report, lenient.verifyAllOfAt tampered [os] moment = .ok report ∧
      (report.faults.length == 5) = true := exists_ok_of_map_eq_some (by decide)
  obtain ⟨-, -, -, -, restored⟩ := readJson_write_of_read_or_verified registered
  exact ⟨registered, report, ok, eq_of_beq count, restored _ _ _ _ ok⟩

end Sample

end HostTrust
