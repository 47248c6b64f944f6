/-
HostTrust.Proofs.HostData — what a host reports leads to faults, and when it
leads to an error after all.

On reports that can be read (`HostManifest.Readable`) every check is carried
out, with one exception. The check of the digest algorithm of a measurement
document asks for the algorithm that the document names, and a document may name
one that does not exist (`Check.findings_cases`). The check of the replay asks
for the same algorithm and finds a fault there
(`MeasurementLog.cumulativeFaults_of_namesUnknown`). This is as far as hosts go;
the library of cryptography can keep a check from being carried out too, where it
does not answer what the check asks (`Check.Answered`).
-/
import HostTrust.Proofs.Outcome

namespace HostTrust

open Outcome

/-! ## Readable reports -/

/-- What the host reports as text can be read: each measurement document, and the certificate
that it presents for its attestation key, if any. -/
structure HostManifest.Readable (m : HostManifest) : Prop where
  documents : ∀ xml ∈ m.measurementXmls, ∃ log, MeasurementLog.parse xml = .ok log
  aik : ∀ text, m.aikText? = some text →
    ∃ c, Certificate.decode text CertificateUse.aik.role = .ok c

/-- The moment is one that calendars of four digit years name. -/
def CalendarTime.Names (time : Int) : Prop := leastUnix ≤ time ∧ time ≤ greatestUnix

/-- The document that the host reports about the flavor. -/
def HostManifest.Documents (m : HostManifest) (flavor : Uuid) (log : MeasurementLog) : Prop :=
  MeasurementLog.findFor flavor m.measurementXmls = .ok (some log)

/-- The document names an algorithm that is none. -/
def MeasurementLog.NamesUnknown (log : MeasurementLog) (name : String) : Prop :=
  log.digestAlgorithm = some name ∧ Bank.ofName? name = none

theorem MeasurementLog.algorithm_of_names {log : MeasurementLog} {name : String}
    (stated : log.digestAlgorithm = some name) :
    log.algorithm = (Bank.ofName? name).elim (.error (.unknownAlgorithm name)) .ok := by
  rw [algorithm, stated]
  show Bank.parse name = _
  -- The equation that `rw` derives for `parse` looks into the names of banks.
  delta Bank.parse
  cases Bank.ofName? name <;> rfl

theorem MeasurementLog.algorithm_of_namesUnknown {log : MeasurementLog} {name : String}
    (unknown : log.NamesUnknown name) : log.algorithm = .error (.unknownAlgorithm name) := by
  rw [algorithm_of_names unknown.1, unknown.2]
  rfl

theorem MeasurementLog.algorithm_cases (log : MeasurementLog) :
    (∃ bank, log.algorithm = .ok bank) ∨ ∃ name, log.NamesUnknown name := by
  cases stated : log.digestAlgorithm with
  | none => exact .inl ⟨defaultAlgorithm, by simp [algorithm, stated]⟩
  | some name =>
    cases known : Bank.ofName? name with
    | some bank => exact .inl ⟨bank, by rw [algorithm_of_names stated, known]; rfl⟩
    | none => exact .inr ⟨name, stated, known⟩

theorem MeasurementLog.algorithmFaults_of_namesUnknown {log : MeasurementLog} {name : String}
    {expected : Bank} (unknown : log.NamesUnknown name) :
    log.algorithmFaults expected = .error (.measurement (.unknownAlgorithm name)) := by
  rw [algorithmFaults, algorithm_of_namesUnknown unknown]
  rfl

theorem MeasurementLog.exists_algorithmFaults {log : MeasurementLog} {actual expected : Bank}
    (known : log.algorithm = .ok actual) : ∃ faults, log.algorithmFaults expected = .ok faults := by
  rw [algorithmFaults, known]
  by_cases same : actual = expected
  · exact ⟨[], by simp [same, Except.mapError]⟩
  · exact ⟨_, by simp [same, Except.mapError]; rfl⟩

/-- The same document is no obstacle to the check of its replay. -/
theorem MeasurementLog.cumulativeFaults_of_namesUnknown {log : MeasurementLog} {name : String}
    (unknown : log.NamesUnknown name) (flavor : Uuid) (expected : String) :
    log.cumulativeFaults flavor expected = [.plain .xmlMeasurementLogInvalid
      ("Measurement log of flavor " ++ flavor.display ++ " cannot be replayed")] := by
  have failed : log.replay = .error (.unknownAlgorithm name) := by
    rw [replay, algorithm_of_namesUnknown unknown]
    rfl
  rw [cumulativeFaults, failed]

/-- Seconds since 1970 are compared with the bounds, the first of them before the last. -/
theorem Certificate.validityAt_eq_ok_iff {c : Certificate} {time : Int} {v : Validity} :
    c.validityAt time = .ok v ↔ CalendarTime.Names time ∧
      v = if time < c.notBefore.toUnix then .notYetValid
        else if c.notAfter.toUnix < time then .expired else .valid := by
  unfold validityAt CalendarTime.Names
  by_cases out : time < CalendarTime.leastUnix ∨ CalendarTime.greatestUnix < time
  · have unnamed : ¬ (CalendarTime.leastUnix ≤ time ∧ time ≤ CalendarTime.greatestUnix) := by omega
    simp [out, unnamed]
  · have named : CalendarTime.leastUnix ≤ time ∧ time ≤ CalendarTime.greatestUnix := by omega
    simp only [out, named, if_false, true_and, and_self, pure, Except.pure]
    split
    · simp [eq_comm]
    · split <;> simp [eq_comm]

/-- A certificate is valid from its first second to its last one. -/
theorem Certificate.validityAt_eq_valid_iff {c : Certificate} {time : Int} :
    c.validityAt time = .ok .valid ↔ CalendarTime.Names time ∧
      c.notBefore.toUnix ≤ time ∧ time ≤ c.notAfter.toUnix := by
  rw [validityAt_eq_ok_iff]
  refine and_congr_right fun _ => ?_
  by_cases early : time < c.notBefore.toUnix
  · simp [early, Int.not_le.mpr early]
  · by_cases late : c.notAfter.toUnix < time
    · simp [early, late, Int.not_le.mpr late]
    · simp [early, late, Int.not_lt.mp early, Int.not_lt.mp late]

/-! ## Answers of the library -/

section

variable [CertificateLibrary] {c : Certificate} {use : CertificateUse}
  {authorities : CertificatePool} {time : Int} {m : HostManifest}

/-- The pool has certificates, and the library says that the certificate chains to one of them. -/
structure Certificate.ChainsTo (c : Certificate) (authorities : CertificatePool) : Prop where
  nonempty : authorities.certificates ≠ []
  told : CertificateLibrary.chainsTo authorities.certificates c = .ok true

/-- The library says whether the certificate chains to one of the pool's, if there are any. -/
def CertificatePool.Answers (authorities : CertificatePool) (c : Certificate) : Prop :=
  authorities.certificates ≠ [] →
    ∃ b, CertificateLibrary.chainsTo authorities.certificates c = .ok b

theorem CertificatePool.isTrusted_eq_true_iff :
    authorities.isTrusted c = .ok true ↔ c.ChainsTo authorities := by
  unfold isTrusted isEmpty
  constructor
  · intro h
    split at h
    · simp at h
    · next nonempty => exact ⟨by simpa using nonempty, by simpa using h⟩
  · rintro ⟨nonempty, told⟩
    simp [nonempty, told]

theorem CertificatePool.exists_isTrusted_iff :
    (∃ b, authorities.isTrusted c = .ok b) ↔ authorities.Answers c := by
  unfold isTrusted isEmpty Answers
  split <;> simp_all

@[simp] theorem Certificate.verifySignature_eq_ok_iff {data signature : Bytes} {b : Bool} :
    c.verifySignature data signature = .ok b ↔
      CertificateLibrary.verifies c data signature = .ok b :=
  mapError_eq_ok_iff

theorem Certificate.trustFaults_eq_ok_iff {faults : List Fault} :
    c.trustFaults use authorities = .ok faults ↔
      ∃ b, authorities.isTrusted c = .ok b ∧ faults = if b then [] else [use.notTrusted] := by
  simp only [trustFaults, bind_eq_ok_iff, pure_eq_ok_iff]
  exact exists_congr fun b => and_congr_right' eq_comm

theorem Certificate.faultsAt_eq_ok_iff {faults : List Fault} :
    c.faultsAt use authorities time = .ok faults ↔ ∃ b v, authorities.isTrusted c = .ok b ∧
      c.validityAt time = .ok v ∧
      faults = (if b then [] else [use.notTrusted]) ++ c.validityFaults use v := by
  simp only [faultsAt, bind_eq_ok_iff, trustFaults_eq_ok_iff, pure_eq_ok_iff]
  constructor
  · rintro ⟨_, ⟨b, trust, rfl⟩, v, ok, rfl⟩
    exact ⟨b, v, trust, ok, rfl⟩
  · rintro ⟨b, v, trust, ok, rfl⟩
    exact ⟨_, ⟨b, trust, rfl⟩, v, ok, rfl⟩

/-- Faults are told by the library and by calendars, and both have to know. -/
theorem Certificate.exists_faultsAt_iff :
    (∃ faults, c.faultsAt use authorities time = .ok faults) ↔
      authorities.Answers c ∧ CalendarTime.Names time := by
  simp only [faultsAt_eq_ok_iff, validityAt_eq_ok_iff, ← CertificatePool.exists_isTrusted_iff]
  constructor
  · rintro ⟨_, b, v, trust, ⟨named, -⟩, -⟩
    exact ⟨⟨b, trust⟩, named⟩
  · rintro ⟨⟨b, trust⟩, named⟩
    exact ⟨_, b, _, trust, ⟨named, rfl⟩, rfl⟩

/-- The library says whether the certificate that the host presents is trusted. -/
def HostManifest.AikAnswered (m : HostManifest) (authorities : CertificatePool) : Prop :=
  ∀ text c, m.aikText? = some text →
    Certificate.decode text CertificateUse.aik.role = .ok c → authorities.Answers c

theorem HostManifest.exists_aikFaults (answered : m.AikAnswered authorities)
    (readable : m.Readable) (named : CalendarTime.Names time) :
    ∃ faults, m.aikFaults authorities time = .ok faults := by
  unfold aikFaults
  cases presented : m.aikText? with
  | none => exact ⟨_, rfl⟩
  | some text =>
    obtain ⟨c, decoded⟩ := readable.aik text presented
    simpa [decoded] using
      Certificate.exists_faultsAt_iff.mpr ⟨answered text c presented decoded, named⟩

theorem Certificate.exists_tagFaults {c : Option Certificate}
    (answered : ∀ cert, c = some cert → authorities.Answers cert)
    (named : CalendarTime.Names time) : ∃ faults, tagFaults c authorities time = .ok faults := by
  cases c with
  | none => exact ⟨_, rfl⟩
  | some cert => exact exists_faultsAt_iff.mpr ⟨answered cert rfl, named⟩

/-- If there is a signature and a signer, the library says whether the signer is trusted, and if so,
whether the signature is one of it. -/
def FlavorSignature.Answered (s : FlavorSignature) : Prop :=
  s.signature ≠ "" → ∀ signer, s.signer = some signer → s.authorities.Answers signer ∧
    (signer.ChainsTo s.authorities → ∀ bytes, Base64.decode s.signature = some bytes →
      ∃ b, CertificateLibrary.verifies signer s.content bytes = .ok b)

theorem FlavorSignature.exists_isBy_iff {s : FlavorSignature} {signer : Certificate} :
    (∃ b, s.isBy signer = .ok b) ↔ ∀ bytes, Base64.decode s.signature = some bytes →
      ∃ b, CertificateLibrary.verifies signer s.content bytes = .ok b := by
  unfold isBy
  cases Base64.decode s.signature <;> simp

theorem FlavorSignature.exists_faultsOf_iff {s : FlavorSignature} {signer : Certificate} :
    (∃ faults, s.faultsOf signer = .ok faults) ↔ s.authorities.Answers signer ∧
      (signer.ChainsTo s.authorities → ∃ b, s.isBy signer = .ok b) := by
  rw [← CertificatePool.exists_isTrusted_iff, ← CertificatePool.isTrusted_eq_true_iff]
  unfold faultsOf
  cases s.authorities.isTrusted signer with
  | error e => simp
  | ok trusted =>
    cases trusted with
    | false => simp
    | true =>
      cases s.isBy signer with
      | error e => simp
      | ok signed => cases signed <;> simp

/-- The signature can be judged exactly if the library answers what is asked about it. -/
theorem FlavorSignature.exists_faults_iff {s : FlavorSignature} :
    (∃ faults, s.faults = .ok faults) ↔ s.Answered := by
  unfold faults Answered
  by_cases unsigned : s.signature = ""
  · simp [unsigned]
  · cases s.signer with
    | none => simp [unsigned]
    | some signer =>
      simp only [← exists_isBy_iff, ← exists_faultsOf_iff, Option.some.injEq, forall_eq', ne_eq,
        unsigned, not_false_eq_true, forall_const, if_false]

end

/-! ## Documents -/

theorem HostManifest.inspectLog_of_documents {m : HostManifest} {flavor : Uuid}
    {log : MeasurementLog} {inspect : MeasurementLog → Except VerificationError (List Fault)}
    (document : m.Documents flavor log) : m.inspectLog flavor inspect = inspect log := by
  have found : MeasurementLog.findFor flavor m.measurementXmls = .ok (some log) := document
  rw [inspectLog, found]
  rfl

/-- On readable reports, what is found in the document about a flavor is told by the document. -/
theorem HostManifest.inspectLog_cases {m : HostManifest} (readable : m.Readable) (flavor : Uuid)
    (inspect : MeasurementLog → Except VerificationError (List Fault)) :
    (∃ log, m.Documents flavor log ∧ m.inspectLog flavor inspect = inspect log) ∨
      ∃ faults, m.inspectLog flavor inspect = .ok faults := by
  obtain ⟨logs, hlogs⟩ := exists_mapM_ok_iff.mpr readable.documents
  have found : MeasurementLog.findFor flavor m.measurementXmls =
      .ok (logs.find? (·.uuid == flavor)) := by
    simp [MeasurementLog.findFor, hlogs]
  cases reported : logs.find? (·.uuid == flavor) with
  | some log =>
    have document : m.Documents flavor log := found.trans (congrArg _ reported)
    exact .inl ⟨log, document, inspectLog_of_documents document⟩
  | none =>
    right
    rw [inspectLog, found, reported]
    exact ⟨_, rfl⟩

/-- Every log that the host reports can be compared with what is expected of its register. -/
def HostManifest.LogsCompare (m : HostManifest) : Prop :=
  ∀ pcrs (expected actual : EventLog) tags, m.reportedPcrs = some pcrs →
    pcrs.log? expected.pcr = some actual →
    (∃ d, (expected.withoutTags tags).diff (actual.withoutTags tags) = .ok d) ∧
      ∃ rest, expected.subtract actual = .ok rest

/-- Logs of one register can be compared. -/
theorem EventLog.diff_of_same {a b : EventLog} (h : a.pcr = b.pcr) :
    a.diff b = .ok (a.compare b) := by
  simp [diff, ensureSamePcr, h]

theorem EventLog.subtract_of_same {a b : EventLog} (h : a.pcr = b.pcr) :
    a.subtract b = .ok { a with events := Event.without a.events b.events } := by
  simp [subtract, ensureSamePcr, h]

/-- A reported log is one of the register that was asked for. -/
theorem PcrManifest.pcr_of_log? {pcrs : PcrManifest} {pcr : Pcr} {log : EventLog}
    (h : pcrs.log? pcr = some log) : log.pcr = pcr := by
  obtain ⟨logs, -, found⟩ := Option.bind_eq_some_iff.mp h
  simpa using List.find?_some found

/-- So what the checks find by comparing it is what the comparisons that may fail give. -/
theorem PcrManifest.comparable_of_log? {pcrs : PcrManifest} {expected actual : EventLog}
    (h : pcrs.log? expected.pcr = some actual) (tags : NameSet) :
    (expected.withoutTags tags).diff (actual.withoutTags tags) =
        .ok ((expected.withoutTags tags).compare (actual.withoutTags tags)) ∧
      expected.subtract actual =
        .ok { expected with events := Event.without expected.events actual.events } := by
  have same : expected.pcr = actual.pcr := (pcr_of_log? h).symm
  have kept : ∀ log : EventLog, (log.withoutTags tags).pcr = log.pcr := by
    intro log
    unfold EventLog.withoutTags
    split <;> rfl
  exact ⟨EventLog.diff_of_same (by rw [kept, kept, same]), EventLog.subtract_of_same same⟩

theorem HostManifest.logsCompare (m : HostManifest) : m.LogsCompare := by
  intro pcrs expected actual tags _ reported
  obtain ⟨diff, rest⟩ := PcrManifest.comparable_of_log? reported tags
  exact ⟨⟨_, diff⟩, _, rest⟩

/-! ## Checks -/

namespace Check

/-- The moment at which the check looks at a certificate. -/
def moment? : Check → Option Int
  | .aikCertificate _ time | .tagCertificate _ _ time => some time
  | _ => none

/-- The library answers what the check asks it about the host. -/
def Answered [CertificateLibrary] (m : HostManifest) : Check → Prop
  | .aikCertificate authorities _ => m.AikAnswered authorities
  | .tagCertificate c authorities _ => ∀ cert, c = some cert → authorities.Answers cert
  | .flavorSignature s => s.Answered
  | _ => True

/-- The flavor whose measurement document has to name an algorithm for the check. -/
def algorithmOf? : Check → Option Uuid
  | .measurementAlgorithm flavor _ => some flavor
  | _ => none

/-- The host names an unknown algorithm where the check asks for one. -/
def MisnamedIn (c : Check) (m : HostManifest) (name : String) : Prop :=
  ∃ flavor log, c.algorithmOf? = some flavor ∧ m.Documents flavor log ∧ log.NamesUnknown name

variable [CertificateLibrary] {m : HostManifest} {c : Check}

theorem findings_of_misnamedIn {name : String} (h : c.MisnamedIn m name) :
    c.findings m = .error (.measurement (.unknownAlgorithm name)) := by
  obtain ⟨flavor, log, asked, document, unknown⟩ := h
  cases c <;> cases asked
  simp only [findings, HostManifest.inspectLog_of_documents document,
    MeasurementLog.algorithmFaults_of_namesUnknown unknown]
  rfl

/-- On readable reports, only an unknown algorithm keeps a check from being carried out. -/
theorem findings_cases (answered : c.Answered m) (readable : m.Readable)
    (named : ∀ time, c.moment? = some time → CalendarTime.Names time) :
    (∃ found, c.findings m = .ok found) ∨ ∃ name, c.MisnamedIn m name := by
  cases c with
  | pcrValue | assetTag | equalEvents | includedEvents | replay => exact .inl ⟨_, rfl⟩
  | flavorSignature s =>
    left
    simpa [findings] using FlavorSignature.exists_faults_iff.mpr answered
  | aikCertificate authorities time =>
    left
    simpa [findings] using HostManifest.exists_aikFaults answered readable (named time rfl)
  | tagCertificate certificate authorities time =>
    left
    simpa [findings] using Certificate.exists_tagFaults answered (named time rfl)
  | measurementAlgorithm flavor bank =>
    rcases HostManifest.inspectLog_cases readable flavor (·.algorithmFaults bank) with
      ⟨log, document, h⟩ | h
    · rcases log.algorithm_cases with ⟨actual, known⟩ | ⟨name, unknown⟩
      · left
        simpa [findings, h] using MeasurementLog.exists_algorithmFaults known
      · exact .inr ⟨name, flavor, log, rfl, document, unknown⟩
    · left
      simpa [findings] using h
  | cumulativeHash flavor hash =>
    left
    rcases HostManifest.inspectLog_cases readable flavor
      (fun log => return log.cumulativeFaults flavor hash) with ⟨log, -, h⟩ | h
    · simp [findings, h]
    · simpa [findings] using h
  | measurements flavor ms =>
    left
    rcases HostManifest.inspectLog_cases readable flavor
      (fun log => return Measurement.faults flavor ms log.measurements) with
      ⟨log, -, h⟩ | h
    · simp [findings, h]
    · simpa [findings] using h

end Check

/-! ## The library of the samples -/

namespace Sample

attribute [scoped instance] CertificateLibrary.rsa

end Sample

end HostTrust
