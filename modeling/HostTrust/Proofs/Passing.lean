/-
HostTrust.Proofs.Passing — what it takes to pass a check, said of what the
host reports.

A check is passed when it can be carried out and finds no fault. For each check
about registers, event logs, certificates and signatures there is a statement
in terms of the data alone, without faults and without the order in which the
check looks at things: `HostManifest.Holds`, `LogsExactly`, `LogsAll`,
`LogReplays`, `PresentsAik`, `Certificate.TrustedAt`, `FlavorSignature.Valid`,
which is `SignedFlavor.SignedUnder` for the signature of a flavor. Trust and
signatures are what the library of cryptography says of them, with nothing
assumed of what it says.
The lemmas `passes_…_iff` say that passing is exactly that.
-/
import HostTrust.Proofs.Evaluation
import HostTrust.Proofs.WrittenTime

namespace HostTrust

open Outcome

/-! ## Texts and keys -/

theorem Hex.isBlank_digit {n : Nat} (h : n < 16) : Text.isBlank (Hex.digit n) = false := by
  decide +revert

/-- Bytes in hexadecimal digits have no blanks around them. -/
theorem Hex.trim_encode (bs : Bytes) : Text.trim (Hex.encode bs) = Hex.encode bs := by
  have visible : ∀ c ∈ bs.flatMap Hex.byteChars, Text.isBlank c = false := by
    intro c hc
    obtain ⟨b, -, hb⟩ := List.mem_flatMap.mp hc
    have := b.toNat_lt
    rcases List.mem_cons.mp hb with rfl | hb
    · exact Hex.isBlank_digit (by omega)
    · obtain rfl := List.mem_singleton.mp hb
      exact Hex.isBlank_digit (by omega)
  rw [Text.trim, Hex.encode, String.toList_ofList, Text.trimChars_eq_self]
  · exact fun c hc => visible c (List.mem_of_mem_head? hc)
  · exact fun c hc => visible c (List.mem_of_mem_getLast? hc)

/-- What a log replays to has no blanks around it. -/
theorem EventLog.trim_replay {log : EventLog} {value : String} (h : log.replay = .ok value) :
    Text.trim value = value := by
  simp only [EventLog.replay, Bank.replay, bind_eq_ok_iff, pure_eq_ok_iff] at h
  obtain ⟨bytes, -, rfl⟩ := h
  exact Hex.trim_encode bytes

theorem Event.hasAnyTag_eq_false_iff {e : Event} {tags : NameSet} :
    e.hasAnyTag tags = false ↔ ∀ t ∈ e.tags.toList, t ∉ tags.toList := by
  simp [Event.hasAnyTag, NameSet.meets, NameSet.contains]

/-- The log has an event with this key that carries none of the tags. -/
def EventLog.HasKey (log : EventLog) (exclude : NameSet) (key : String × String) : Prop :=
  ∃ e ∈ log.events, (∀ t ∈ e.tags.toList, t ∉ exclude.toList) ∧ e.key = key

theorem EventLog.mem_withoutTags {log : EventLog} {tags : NameSet} {e : Event} :
    e ∈ (log.withoutTags tags).events ↔
      e ∈ log.events ∧ ∀ t ∈ e.tags.toList, t ∉ tags.toList := by
  unfold EventLog.withoutTags
  split
  · next none =>
    have : tags.toList = [] := by simpa [NameSet.isEmpty] using none
    simp [this]
  · simp [Event.hasAnyTag_eq_false_iff]

/-- The keys of `EventLog.withoutTags` are those with an event that is kept. -/
theorem EventLog.hasKey_iff {log : EventLog} {tags : NameSet} {key : String × String} :
    log.HasKey tags key ↔ ∃ e ∈ (log.withoutTags tags).events, e.key = key := by
  simp [EventLog.HasKey, EventLog.mem_withoutTags, and_assoc]

theorem Event.without_eq_nil_iff {events others : List Event} :
    Event.without events others = [] ↔ ∀ e ∈ events, ∃ o ∈ others, o.key = e.key := by
  simp [Event.without]

/-- Nothing is missing and nothing unexpected exactly if the keys are the same. -/
theorem Event.without_both_eq_nil_iff {events others : List Event} :
    Event.without events others = [] ∧ Event.without others events = [] ↔
      ∀ key, (∃ e ∈ events, e.key = key) ↔ ∃ o ∈ others, o.key = key := by
  rw [Event.without_eq_nil_iff, Event.without_eq_nil_iff]
  constructor
  · rintro ⟨there, back⟩ key
    constructor
    · rintro ⟨e, he, rfl⟩
      exact there e he
    · rintro ⟨o, ho, rfl⟩
      exact back o ho
  · intro same
    exact ⟨fun e he => (same e.key).mp ⟨e, he, rfl⟩, fun o ho => (same o.key).mpr ⟨o, ho, rfl⟩⟩

/-! ## What checks ask for -/

namespace HostManifest

/-- The host reports the value of the register, up to letter case. -/
def Holds (m : HostManifest) (expected : PcrValue) : Prop :=
  ∃ pcrs actual, m.reportedPcrs = some pcrs ∧ pcrs.value? expected.pcr = some actual ∧
    Text.sameIgnoringCase actual.value (Text.trim expected.value) = true

/-- The host reports a log with the keys of the expected one and no others, not counting
events with excluded tags on either side. -/
def LogsExactly (m : HostManifest) (expected : EventLog) (exclude : NameSet) : Prop :=
  ∃ pcrs actual, m.reportedPcrs = some pcrs ∧ pcrs.log? expected.pcr = some actual ∧
    ∀ key, expected.HasKey exclude key ↔ actual.HasKey exclude key

/-- The host reports a log with all keys of the expected one. -/
def LogsAll (m : HostManifest) (expected : EventLog) : Prop :=
  ∃ pcrs actual, m.reportedPcrs = some pcrs ∧ pcrs.log? expected.pcr = some actual ∧
    ∀ e ∈ expected.events, ∃ a ∈ actual.events, a.key = e.key

/-- The host reports a log that leads to the value that it reports for the register. -/
def LogReplays (m : HostManifest) (pcr : Pcr) : Prop :=
  ∃ pcrs actual log value, m.reportedPcrs = some pcrs ∧ pcrs.value? pcr = some actual ∧
    pcrs.log? pcr = some log ∧ log.replay = .ok value ∧
    Text.sameIgnoringCase actual.value value = true

end HostManifest

section

variable [CertificateLibrary]

/-- The certificate chains to one of the pool's, and the moment is neither before its first second
nor after its last one. -/
structure Certificate.TrustedAt (c : Certificate) (authorities : CertificatePool) (time : Int) :
    Prop where
  trusted : c.ChainsTo authorities
  begun : c.notBefore.toUnix ≤ time
  lasting : time ≤ c.notAfter.toUnix

/-- That a certificate was read is enough for calendars to name the seconds of its window. -/
theorem Certificate.TrustedAt.names {c : Certificate} {authorities : CertificatePool} {time : Int}
    {text role : String} (h : c.TrustedAt authorities time) (decoded : decode text role = .ok c) :
    CalendarTime.Names time :=
  names_of_decode decoded h.begun h.lasting

/-- The host presents a certificate for its attestation key that is trusted and valid. -/
def HostManifest.PresentsAik (m : HostManifest) (authorities : CertificatePool) (time : Int) :
    Prop :=
  ∃ text c, m.aikText? = some text ∧
    Certificate.decode text CertificateUse.aik.role = .ok c ∧ c.TrustedAt authorities time

/-! ## Signatures -/

namespace FlavorSignature

variable {s : FlavorSignature}

/-- The signature is one of a trusted signer over the content. -/
def Valid (s : FlavorSignature) : Prop :=
  s.signature ≠ "" ∧ ∃ signer bytes, s.signer = some signer ∧
    signer.ChainsTo s.authorities ∧ Base64.decode s.signature = some bytes ∧
    CertificateLibrary.verifies signer s.content bytes = .ok true

theorem isBy_iff {signer : Certificate} :
    s.isBy signer = .ok true ↔ ∃ bytes, Base64.decode s.signature = some bytes ∧
      CertificateLibrary.verifies signer s.content bytes = .ok true := by
  unfold isBy
  cases Base64.decode s.signature <;> simp

theorem faultsOf_eq_nil_iff {signer : Certificate} :
    s.faultsOf signer = .ok [] ↔
      signer.ChainsTo s.authorities ∧ s.isBy signer = .ok true := by
  rw [← CertificatePool.isTrusted_eq_true_iff, faultsOf]
  cases s.authorities.isTrusted signer with
  | error e => simp
  | ok trusted =>
    cases s.isBy signer with
    | error e => cases trusted <;> simp
    | ok signed => cases trusted <;> cases signed <;> simp

/-- The steps are tried in order, so the first that fails is the only fault; without a fault
none has failed. -/
theorem faults_eq_nil_iff : s.faults = .ok [] ↔ s.Valid := by
  have stepwise : s.Valid ↔ s.signature ≠ "" ∧ ∃ signer, s.signer = some signer ∧
      signer.ChainsTo s.authorities ∧ s.isBy signer = .ok true := by
    simp [Valid, isBy_iff]
  rw [stepwise]
  unfold faults
  by_cases unsigned : s.signature = ""
  · simp [unsigned]
  · cases s.signer with
    | none => simp [unsigned]
    | some signer => simp [unsigned, faultsOf_eq_nil_iff]

end FlavorSignature

/-- The flavor is signed by the configured signer, whom the flavor authorities make trusted. -/
def SignedFlavor.SignedUnder (f : SignedFlavor) (anchors : TrustAnchors) : Prop :=
  Text.trim f.signature ≠ "" ∧ ∃ signer bytes, anchors.flavorSigning = some signer ∧
    signer.ChainsTo anchors.flavorCa ∧
    Base64.decode (Text.trim f.signature) = some bytes ∧
    CertificateLibrary.verifies signer f.signingBytes bytes = .ok true

theorem SignedFlavor.valid_signature_iff {f : SignedFlavor} {anchors : TrustAnchors} :
    (FlavorSignature.ofFlavor f anchors.flavorSigning anchors.flavorCa).Valid ↔
      f.SignedUnder anchors :=
  Iff.rfl

end

/-! ## Passing -/

namespace Check

variable [CertificateLibrary] {m : HostManifest}

/-- The check can be carried out on the host and finds no fault. -/
def Passes (c : Check) (m : HostManifest) : Prop :=
  ∃ found, c.findings m = .ok found ∧ found.faults = []

theorem passes_rule_iff {c : Check} {markers : List FlavorPart} :
    (c.rule markers).Passes m ↔ c.Passes m := by
  simp [Rule.Passes, Passes, Check.rule, Check.result, RuleResult.ofFaults]

/-- A check of register data is passed only on data that is reported. -/
theorem passes_iff_of_inspectPcrs {c : Check} {inspect : PcrManifest → Findings}
    (h : c.findings m = return m.inspectPcrs inspect) :
    c.Passes m ↔ ∃ pcrs, m.reportedPcrs = some pcrs ∧ (inspect pcrs).faults = [] := by
  rw [Passes, h]
  unfold HostManifest.inspectPcrs
  cases m.reportedPcrs <;> simp [Findings.ofFaults]

omit [CertificateLibrary] in
theorem inspectLog_faults_eq_nil_iff {pcrs : PcrManifest} {pcr : Pcr}
    {inspect : EventLog → Findings} :
    (pcrs.inspectLog pcr inspect).faults = [] ↔
      ∃ log, pcrs.log? pcr = some log ∧ (inspect log).faults = [] := by
  unfold PcrManifest.inspectLog
  cases pcrs.log? pcr <;> simp [Findings.ofFaults]

omit [CertificateLibrary] in
theorem ifAny_eq_nil_iff {fault : Pcr → List Event → Fault} {pcr : Pcr} {events : List Event} :
    Fault.ifAny fault pcr events = [] ↔ events = [] := by
  simp [Fault.ifAny]

theorem passes_pcrValue_iff {v : PcrValue} : (pcrValue v).Passes m ↔ m.Holds v := by
  have value : ∀ pcrs : PcrManifest, pcrs.valueFaults v = [] ↔
      ∃ actual, pcrs.value? v.pcr = some actual ∧ actual.agrees v.value = true := by
    intro pcrs
    unfold PcrManifest.valueFaults
    cases pcrs.value? v.pcr <;> simp
  rw [passes_iff_of_inspectPcrs rfl]
  simp [Findings.ofFaults, value, HostManifest.Holds, PcrValue.agrees]

theorem passes_equalEvents_iff {log : EventLog} {exclude : NameSet} :
    (equalEvents log exclude).Passes m ↔ m.LogsExactly log exclude := by
  have compared : ∀ actual : EventLog,
      (((log.withoutTags exclude).compare (actual.withoutTags exclude)).findings
        log.pcr).faults = [] ↔ ∀ key, log.HasKey exclude key ↔ actual.HasKey exclude key := by
    intro actual
    simp only [EventLog.hasKey_iff, ← Event.without_both_eq_nil_iff]
    simp [EventLogDiff.findings, EventLog.compare, ifAny_eq_nil_iff, and_comm]
  rw [passes_iff_of_inspectPcrs rfl]
  simp [PcrManifest.equalEvents, inspectLog_faults_eq_nil_iff, compared,
    HostManifest.LogsExactly]

theorem passes_includedEvents_iff {log : EventLog} :
    (includedEvents log).Passes m ↔ m.LogsAll log := by
  rw [passes_iff_of_inspectPcrs rfl]
  simp [PcrManifest.includedEvents, inspectLog_faults_eq_nil_iff, Findings.ofFaults,
    ifAny_eq_nil_iff, Event.without_eq_nil_iff, HostManifest.LogsAll]

theorem passes_replay_iff {pcr : Pcr} : (replay pcr).Passes m ↔ m.LogReplays pcr := by
  have replayed : ∀ pcrs : PcrManifest, pcrs.replayFaults pcr = [] ↔
      ∃ actual log value, pcrs.value? pcr = some actual ∧ pcrs.log? pcr = some log ∧
        log.replay = .ok value ∧ Text.sameIgnoringCase actual.value value = true := by
    intro pcrs
    unfold PcrManifest.replayFaults
    cases pcrs.value? pcr with
    | none => simp
    | some actual =>
      cases pcrs.log? pcr with
      | none => simp
      | some log =>
        cases hr : log.replay with
        | error failure => simp [hr]
        | ok value => simp [hr, PcrValue.agrees, EventLog.trim_replay hr]
  rw [passes_iff_of_inspectPcrs rfl]
  simp [Findings.ofFaults, replayed, HostManifest.LogReplays]

theorem faultsAt_eq_nil_iff {c : Certificate} {use : CertificateUse}
    {authorities : CertificatePool} {time : Int} :
    c.faultsAt use authorities time = .ok [] ↔
      CalendarTime.Names time ∧ c.TrustedAt authorities time := by
  have clean : c.faultsAt use authorities time = .ok [] ↔
      c.ChainsTo authorities ∧ c.validityAt time = .ok .valid := by
    rw [← CertificatePool.isTrusted_eq_true_iff, Certificate.faultsAt_eq_ok_iff]
    constructor
    · rintro ⟨b, v, trust, ok, none⟩
      obtain ⟨trusted, inTime⟩ := List.append_eq_nil_iff.mp none.symm
      obtain rfl : b = true := by simpa using trusted
      cases v <;> simp [Certificate.validityFaults] at inTime
      exact ⟨trust, ok⟩
    · rintro ⟨trust, ok⟩
      exact ⟨true, .valid, trust, ok, rfl⟩
  rw [clean, Certificate.validityAt_eq_valid_iff]
  constructor
  · rintro ⟨trust, named, first, last⟩
    exact ⟨named, trust, first, last⟩
  · rintro ⟨named, trust, first, last⟩
    exact ⟨trust, named, first, last⟩

/-- A check that tells faults alone is passed exactly if it tells none. -/
theorem passes_iff_of_ofFaults {c : Check} {faults : Except VerificationError (List Fault)}
    (h : c.findings m = .ofFaults <$> faults) : c.Passes m ↔ faults = .ok [] := by
  rw [Passes, h]
  simp [Findings.ofFaults]

theorem passes_aikCertificate_iff {authorities : CertificatePool} {time : Int} :
    (aikCertificate authorities time).Passes m ↔ m.PresentsAik authorities time := by
  rw [passes_iff_of_ofFaults rfl, HostManifest.aikFaults, HostManifest.PresentsAik]
  cases m.aikText? with
  | none => simp
  | some text =>
    simp only [bind_eq_ok_iff, mapError_eq_ok_iff, faultsAt_eq_nil_iff]
    constructor
    · rintro ⟨c, decoded, -, trusted⟩
      exact ⟨text, c, rfl, decoded, trusted⟩
    · rintro ⟨_, c, presented, decoded, trusted⟩
      obtain rfl := Option.some.inj presented
      exact ⟨c, decoded, trusted.names decoded, trusted⟩

theorem passes_tagCertificate_iff {certificate : Option Certificate}
    {authorities : CertificatePool} {time : Int} :
    (tagCertificate certificate authorities time).Passes m ↔
      ∃ c, certificate = some c ∧ CalendarTime.Names time ∧ c.TrustedAt authorities time := by
  rw [passes_iff_of_ofFaults rfl]
  cases certificate with
  | none => simp [Certificate.tagFaults]
  | some c => simp [Certificate.tagFaults, faultsAt_eq_nil_iff]

theorem passes_flavorSignature_iff {s : FlavorSignature} :
    (flavorSignature s).Passes m ↔ s.Valid := by
  rw [passes_iff_of_ofFaults rfl, FlavorSignature.faults_eq_nil_iff]

end Check

end HostTrust
