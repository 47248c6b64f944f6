/-
HostTrust.Proofs.Completion — when verification comes to a report.

The standard builders ask for checks alone, and only a flavor for software asks
for the algorithm of a measurement document (`Check.ListFor`). So verification
of flavors that can be turned into rules gives a report on every host whose
report can be read, except where the host names an algorithm that does not exist
in the document about one of the software flavors: there the host, and not the
flavor, decides that there is no report (`exists_report_iff_of_readable`). The
library of cryptography has to answer what it is asked about the host and the
flavors (`RuleContext.Answered`).
-/
import HostTrust.Proofs.Agreement
import HostTrust.Proofs.AggregateReport
import HostTrust.Proofs.FixedLayout
import HostTrust.Proofs.HostData

namespace HostTrust

open Outcome

/-! ## What a flavor asks for -/

/-- The library says of each certificate that rules look at whether it is trusted, and unless
signatures are left out, whether the flavor is signed. -/
structure RuleContext.Answered [CertificateLibrary] (c : RuleContext) (skip : Bool) : Prop where
  aik : c.manifest.AikAnswered c.anchors.privacyCa
  tag : ∀ text cert, c.flavor.tagCertificate? = some text →
    Certificate.decode text CertificateUse.assetTag.role = .ok cert →
      c.anchors.assetTagCa.Answers cert
  signature : skip = false → (FlavorSignature.ofFlavor c.signedFlavor c.anchors.flavorSigning
    c.anchors.flavorCa).Answered

namespace Check

variable [CertificateLibrary]

/-- The check looks at certificates at the moment of the rules only, and asks the library nothing
that rules do not ask. -/
structure Timely (c : RuleContext) (skip : Bool) (k : Check) : Prop where
  moment : ∀ t, k.moment? = some t → t = c.time
  answered : c.Answered skip → k.Answered c.manifest

/-- The check asks for no algorithm besides. -/
structure Apart (c : RuleContext) (skip : Bool) (k : Check) : Prop extends k.Timely c skip where
  algorithm : k.algorithmOf? = none

/-- Checks for a flavor about a part. -/
structure ListFor (c : RuleContext) (skip : Bool) (part : FlavorPart) (cs : List Check) : Prop where
  timely : ∀ k ∈ cs, k.Timely c skip
  /-- Only the document about a software flavor has to name an algorithm. -/
  algorithm : ∀ flavor, (∃ k ∈ cs, k.algorithmOf? = some flavor) ↔
    part = .software ∧ c.flavor.id? = some flavor

variable {c : RuleContext} {skip : Bool} {part : FlavorPart} {cs ds : List Check}

theorem not_asks_of_apart (apart : ∀ k ∈ ds, k.Apart c skip) (flavor : Uuid) :
    ¬ ∃ k ∈ ds, k.algorithmOf? = some flavor := by
  rintro ⟨k, hk, asked⟩
  simp [(apart k hk).algorithm] at asked

theorem ListFor.append (h : ListFor c skip part cs) (apart : ∀ k ∈ ds, k.Apart c skip) :
    ListFor c skip part (cs ++ ds) := by
  constructor
  · intro k hk
    rcases List.mem_append.mp hk with hk | hk
    · exact h.timely k hk
    · exact (apart k hk).toTimely
  · intro flavor
    rw [← h.algorithm flavor]
    simp only [List.mem_append, or_and_right, exists_or, not_asks_of_apart apart flavor, or_false]

theorem ListFor.of_apart (registers : part ≠ .software) (apart : ∀ k ∈ cs, k.Apart c skip) :
    ListFor c skip part cs where
  timely k hk := (apart k hk).toTimely
  algorithm flavor := by simp [registers, not_asks_of_apart apart flavor]

/-- A check that looks at no certificate and at no document. -/
theorem apart_of_none {k : Check} (moment : k.moment? = none) (answered : k.Answered c.manifest)
    (algorithm : k.algorithmOf? = none) : k.Apart c skip :=
  ⟨⟨fun t ht => by simp [moment] at ht, fun _ => answered⟩, algorithm⟩

theorem AboutRegister.apart {k : Check} (about : k.AboutRegister) : k.Apart c skip := by
  cases about <;> exact apart_of_none rfl trivial rfl

end Check

theorem PcrPolicy.apart_of_mem_checks [CertificateLibrary] {policies : List PcrPolicy}
    {c : RuleContext} {skip : Bool} {cs : List Check} (h : checks policies = .ok cs) :
    ∀ k ∈ cs, k.Apart c skip := by
  intro k hk
  obtain ⟨p, -, value | events | ⟨-, -, rfl⟩⟩ := (mem_checksAfter_iff h).mp hk
  · obtain ⟨-, rfl⟩ : p.matchesValue = true ∧ k = .pcrValue p.expectedValue := by
      simpa [valueChecks] using value
    exact Check.apart_of_none rfl trivial rfl
  · rcases List.mem_append.mp events with equal | included
    · cases asked : p.logEquals with
      | none => simp [asked] at equal
      | some e =>
        obtain rfl : k = .equalEvents ⟨p.pcr, e.events⟩ e.excludeTags := by
          simpa [asked] using equal
        exact Check.apart_of_none rfl trivial rfl
    · cases asked : p.logIncludes with
      | none => simp [asked] at included
      | some events =>
        obtain rfl : k = .includedEvents ⟨p.pcr, events⟩ := by simpa [asked] using included
        exact Check.apart_of_none rfl trivial rfl
  · exact Check.apart_of_none rfl trivial rfl

namespace RuleBuilder

variable [CertificateLibrary] {c : RuleContext} {skip : Bool} {cs : List Check}

theorem apart_of_mem_assetTagChecks {bank : Bank} (h : assetTagChecks c bank = .ok cs) :
    ∀ k ∈ cs, k.Apart c skip := by
  obtain ⟨certificate, read, given⟩ := bind_eq_ok_iff.mp h
  obtain rfl := pure_eq_ok_iff.mp given
  intro k hk
  rcases List.mem_cons.mp hk with rfl | hk
  · refine ⟨⟨fun t ht => (Option.some.inj ht).symm, fun answered => ?_⟩, rfl⟩
    rintro cert rfl
    cases present : c.flavor.tagCertificate? with
    | none => simp [present] at read
    | some text => exact answered.tag text cert present (by simpa [present] using read)
  · obtain ⟨cert, -, rfl⟩ : ∃ cert, certificate = some cert ∧
        Check.ofAssetTag bank cert.encoded = k := by simpa using hk
    exact Check.apart_of_none rfl trivial rfl

/-- Software is checked against the document about the flavor, whose algorithm is asked for. -/
theorem listFor_softwareChecks (h : softwareChecks c = .ok cs) :
    Check.ListFor c skip .software cs := by
  unfold softwareChecks at h
  obtain ⟨metadata, described, h⟩ := bind_eq_ok_iff.mp h
  obtain ⟨hash, entries, bank, rfl⟩ : ∃ hash entries bank,
      cs = [.measurementAlgorithm metadata.id bank, .cumulativeHash metadata.id hash,
        .measurements metadata.id entries] := by
    cases measured : c.flavor.software with
    | none => simp [measured] at h
    | some software =>
      refine ⟨software.cumulativeHash, software.entries, ?_⟩
      cases named : metadata.description.digestAlgorithm <;>
        simp only [measured, named, bind_eq_ok_iff, pure_eq_ok_iff] at h <;>
        obtain ⟨bank, -, rfl⟩ := h <;> exact ⟨bank, rfl⟩
  have id : c.flavor.id? = some metadata.id := by
    unfold Flavor.requireMetadata at described
    cases present : c.flavor.metadata with
    | none => simp [present] at described
    | some other =>
      obtain rfl : other = metadata := by simpa [present] using described
      simp [Flavor.id?, present]
  constructor
  · intro k hk
    simp only [List.mem_cons, List.not_mem_nil, or_false] at hk
    refine ⟨fun t ht => ?_, fun _ => ?_⟩
    · rcases hk with rfl | rfl | rfl <;> cases ht
    · rcases hk with rfl | rfl | rfl <;> exact trivial
  · intro flavor
    simp [Check.algorithmOf?, id]

theorem listFor_of_intel {part : FlavorPart} {rules : List Rule}
    (h : intel.rules c part = .ok rules) :
    ∃ cs, Check.ListFor c skip part cs ∧ cs.map (fun k => k.rule [part]) = rules := by
  obtain ⟨cs, hcs, rfl⟩ := exists_checks_of_ofChecks h
  refine ⟨cs, ?_, rfl⟩
  cases part with
  | platform =>
    obtain rfl : [Check.aikCertificate c.anchors.privacyCa c.time] = cs := by simpa using hcs
    refine .of_apart (by decide) fun k hk => ?_
    obtain rfl := List.mem_singleton.mp hk
    exact ⟨⟨fun t ht => (Option.some.inj ht).symm, RuleContext.Answered.aik⟩, rfl⟩
  | os | hostUnique =>
    obtain rfl : [] = cs := by simpa using hcs
    exact .of_apart (by decide) nofun
  | software => exact listFor_softwareChecks hcs
  | assetTag => exact .of_apart (by decide) (apart_of_mem_assetTagChecks hcs)

theorem listFor_of_vmware {layout : PcrLayout} {part : FlavorPart} {rules : List Rule}
    (h : (vmware layout).rules c part = .ok rules) :
    ∃ cs, Check.ListFor c skip part cs ∧ cs.map (fun k => k.rule [part]) = rules := by
  obtain ⟨cs, same, registers, about | ⟨-, tags⟩⟩ := exists_checks_of_vmware h
  · exact ⟨cs, .of_apart registers fun k hk => (about k hk).apart, same⟩
  · exact ⟨cs, .of_apart registers (apart_of_mem_assetTagChecks tags), same⟩

end RuleBuilder

namespace RuleContext

variable [CertificateLibrary]

theorem exists_apart_of_policyRules {c : RuleContext} {skip : Bool} {builder : RuleBuilder}
    {part : FlavorPart} {rules : List Rule} (h : c.policyRules builder part = .ok rules) :
    ∃ cs : List Check, (∀ k ∈ cs, k.Apart c skip) ∧ cs.map (fun k => k.rule [part]) = rules := by
  unfold policyRules at h
  split at h
  · obtain ⟨cs, hcs, given⟩ := bind_eq_ok_iff.mp h
    exact ⟨cs, PcrPolicy.apart_of_mem_checks hcs, pure_eq_ok_iff.mp given⟩
  · exact ⟨[], by simp, pure_eq_ok_iff.mp h⟩

theorem exists_apart_of_signatureRules (c : RuleContext) (skip : Bool) (part : FlavorPart) :
    ∃ cs : List Check, (∀ k ∈ cs, k.Apart c skip) ∧
      cs.map (fun k => k.rule [part]) = c.signatureRules skip part := by
  unfold signatureRules
  split
  · exact ⟨[], by simp, rfl⟩
  · next signed =>
    refine ⟨[c.signatureCheck], fun k hk => ?_, rfl⟩
    obtain rfl := List.mem_singleton.mp hk
    exact ⟨⟨nofun, fun answered => answered.signature (by simpa using signed)⟩, rfl⟩

end RuleContext

/-- The host names an unknown algorithm in the document about the software flavor. -/
def Flavor.MisnamedIn (f : Flavor) (m : HostManifest) (name : String) : Prop :=
  f.part = .ok .software ∧
    ∃ id log, f.id? = some id ∧ m.Documents id log ∧ log.NamesUnknown name

namespace TrustVerifier

variable [CertificateLibrary] {v : TrustVerifier} {m : HostManifest} {time : Int}

/-- The library answers what the rules of the flavor ask it about the host. -/
def Answered (v : TrustVerifier) (m : HostManifest) (time : Int) (f : SignedFlavor) : Prop :=
  RuleContext.Answered ⟨f, m, v.anchors, time⟩ v.skipSignature

/-- The rules of a flavor are checks about its part. -/
theorem exists_listFor_of_rulesFor {f : SignedFlavor} {rules : List Rule}
    (registry : v.registry = .standard) (h : v.rulesFor m time f = .ok rules) :
    ∃ part cs, f.flavor.part = .ok part ∧
      Check.ListFor ⟨f, m, v.anchors, time⟩ v.skipSignature part cs ∧
      cs.map (fun k => k.rule [part]) = rules := by
  obtain ⟨part, vendor, tpm, builder, static, derived, described, -, -, registered, hstatic,
    hderived, rfl⟩ := RuleContext.rules_eq_ok_iff.mp h
  obtain ⟨cs, own, rfl⟩ : ∃ cs,
      Check.ListFor ⟨f, m, v.anchors, time⟩ v.skipSignature part cs ∧
        cs.map (fun k => k.rule [part]) = static := by
    rw [registry] at registered
    rcases BuilderRegistry.standard_cases registered with ⟨-, rfl⟩ | ⟨-, layout, rfl⟩
    · exact RuleBuilder.listFor_of_intel hstatic
    · exact RuleBuilder.listFor_of_vmware hstatic
  obtain ⟨policies, hpolicies, rfl⟩ := RuleContext.exists_apart_of_policyRules hderived
  obtain ⟨signature, hsignature, same⟩ :=
    RuleContext.exists_apart_of_signatureRules ⟨f, m, v.anchors, time⟩ v.skipSignature part
  refine ⟨part, cs ++ policies ++ signature, described,
    (own.append hpolicies).append hsignature, ?_⟩
  rw [List.map_append, List.map_append, same]

/-! ## Verification -/

variable {f : SignedFlavor} {rules : List Rule}

theorem results_eq_mapM (h : v.rulesFor m time f = .ok rules) :
    v.results m time f =
      rules.mapM fun r => (·.withFlavorId f.flavor.id?) <$> r.judge m := by
  rw [rulesFor] at h
  rw [results, h]
  rfl

/-- On readable reports, only an unknown algorithm keeps a rule from being carried out. -/
theorem judge_cases (answered : v.Answered m time f) (registry : v.registry = .standard)
    (named : CalendarTime.Names time) (readable : m.Readable)
    (h : v.rulesFor m time f = .ok rules) {r : Rule} (hr : r ∈ rules) :
    (∃ x, r.judge m = .ok x) ∨ r.name = "XmlMeasurementLogDigestEquals" ∧ ∃ name,
      f.flavor.MisnamedIn m name ∧ r.judge m = .error (.measurement (.unknownAlgorithm name)) := by
  obtain ⟨part, cs, described, list, rfl⟩ := exists_listFor_of_rulesFor registry h
  obtain ⟨c, hc, rfl⟩ := List.mem_map.mp hr
  have timely := list.timely c hc
  have named' : ∀ t, c.moment? = some t → CalendarTime.Names t :=
    fun t ht => timely.moment t ht ▸ named
  rcases c.findings_cases (timely.answered answered) readable named' with
    ⟨found, hfound⟩ | ⟨name, misnamed⟩
  · exact .inl ⟨c.result [part] found, by simp [Check.rule, hfound]⟩
  · obtain ⟨flavor, log, asked, document, unknown⟩ := misnamed
    obtain ⟨rfl, id⟩ := (list.algorithm flavor).mp ⟨c, hc, asked⟩
    refine .inr ⟨?_, name, ⟨described, flavor, log, id, document, unknown⟩, ?_⟩
    · cases c <;> cases asked
      rfl
    · simp [Check.rule, Check.findings_of_misnamedIn ⟨flavor, log, asked, document, unknown⟩]

/-- An unknown algorithm does keep a rule of a software flavor from being carried out. -/
theorem exists_judge_of_misnamedIn {name : String} (registry : v.registry = .standard)
    (h : v.rulesFor m time f = .ok rules) (misnamed : f.flavor.MisnamedIn m name) :
    ∃ r ∈ rules, r.judge m = .error (.measurement (.unknownAlgorithm name)) := by
  obtain ⟨part, cs, described, list, rfl⟩ := exists_listFor_of_rulesFor registry h
  obtain ⟨software, id, log, hid, document, unknown⟩ := misnamed
  obtain rfl : FlavorPart.software = part := by simpa [software] using described
  obtain ⟨c, hc, asked⟩ := (list.algorithm id).mpr ⟨rfl, hid⟩
  refine ⟨c.rule [.software], List.mem_map_of_mem hc, ?_⟩
  simp [Check.rule, Check.findings_of_misnamedIn ⟨id, log, asked, document, unknown⟩]

theorem exists_verifyFlavorAt_iff_of_readable (answered : v.Answered m time f)
    (registry : v.registry = .standard) (named : CalendarTime.Names time) (readable : m.Readable)
    (h : v.rulesFor m time f = .ok rules) :
    (∃ r, v.verifyFlavorAt m f time = .ok r) ↔ ∀ name, ¬ f.flavor.MisnamedIn m name := by
  have evaluated : (∃ r, v.verifyFlavorAt m f time = .ok r) ↔
      ∀ r ∈ rules, ∃ x, r.judge m = .ok x := by
    simp [verifyFlavorAt_eq_ok_iff, results_eq_mapM h, exists_mapM_ok_iff]
  rw [evaluated]
  constructor
  · intro judged name misnamed
    obtain ⟨r, hr, failed⟩ := exists_judge_of_misnamedIn registry h misnamed
    obtain ⟨x, hx⟩ := judged r hr
    simp [failed] at hx
  · intro known r hr
    rcases judge_cases answered registry named readable h hr with judged | ⟨-, name, misnamed, -⟩
    · exact judged
    · exact absurd misnamed (known name)

theorem exists_misnamedIn_of_error {e : VerificationError}
    (answered : v.Answered m time f) (registry : v.registry = .standard)
    (named : CalendarTime.Names time) (readable : m.Readable)
    (h : v.rulesFor m time f = .ok rules) (failed : v.verifyFlavorAt m f time = .error e) :
    ∃ name, f.flavor.MisnamedIn m name ∧ e = .measurement (.unknownAlgorithm name) := by
  have evaluated := (results_eq_mapM h).symm.trans (verifyFlavorAt_eq_error_iff.mp failed)
  obtain ⟨before, r, after, rfl, -, hr⟩ := mapM_eq_error_iff.mp evaluated
  have failed : r.judge m = .error e := map_eq_error_iff.mp hr
  have hmem : r ∈ before ++ r :: after := List.mem_append_right before (.head after)
  rcases judge_cases answered registry named readable h hmem with
    ⟨x, hx⟩ | ⟨-, name, misnamed, given⟩
  · simp [failed] at hx
  · exact ⟨name, misnamed, by simpa [failed] using given⟩

/-- Where the library answers, verification of flavors that can be turned into rules gives a report
on a host whose report can be read, unless the host names an unknown algorithm in the document about
a software flavor. -/
theorem exists_report_iff_of_readable {flavors : List SignedFlavor}
    (answered : ∀ f ∈ flavors, v.Answered m time f)
    (registry : v.registry = .standard) (named : CalendarTime.Names time) (readable : m.Readable)
    (nonempty : flavors ≠ []) (usable : ∀ f ∈ flavors, ∃ rules, v.rulesFor m time f = .ok rules) :
    ((∃ report, v.verifyAllOfAt m flavors time = .ok report) ↔
      ∀ f ∈ flavors, ∀ name, ¬ f.flavor.MisnamedIn m name) ∧
    (∀ e, v.verifyAllOfAt m flavors time = .error e →
      ∃ f ∈ flavors, ∃ name, f.flavor.MisnamedIn m name ∧
        e = .measurement (.unknownAlgorithm name)) ∧
    (∀ f ∈ flavors, ∀ rules, v.rulesFor m time f = .ok rules → ∀ r ∈ rules,
      (∃ x, r.judge m = .ok x) ∨ r.name = "XmlMeasurementLogDigestEquals" ∧ ∃ name,
        f.flavor.MisnamedIn m name ∧
          r.judge m = .error (.measurement (.unknownAlgorithm name))) ∧
    m.LogsCompare := by
  refine ⟨?_, ?_, fun f hf rules h r hr =>
    judge_cases (answered f hf) registry named readable h hr, m.logsCompare⟩
  · rw [exists_verifyAllOfAt_iff nonempty]
    refine forall₂_congr fun f hf => ?_
    obtain ⟨rules, h⟩ := usable f hf
    exact exists_verifyFlavorAt_iff_of_readable (answered f hf) registry named readable h
  · intro e failed
    rcases verifyAllOfAt_eq_error_iff.mp failed with ⟨none, -⟩ | ⟨before, f, after, rfl, -, failed⟩
    · exact absurd none nonempty
    · have hf : f ∈ before ++ f :: after := List.mem_append_right before (.head after)
      obtain ⟨rules, h⟩ := usable f hf
      obtain ⟨name, misnamed, rfl⟩ :=
        exists_misnamedIn_of_error (answered f hf) registry named readable h failed
      exact ⟨f, hf, name, misnamed, rfl⟩

end TrustVerifier

namespace Sample

open TrustVerifier

/-- A flavor for software that has nothing installed. -/
def software : SignedFlavor := ⟨{ flavor .software [] with software := some ⟨.empty, ""⟩ }, ""⟩

/-- A measurement document about the flavor that names an algorithm. -/
def document (algorithm : String) : String :=
  "<Measurement Label=\"app\" Uuid=\"5f5f5f5f-5f5f-5f5f-5f5f-5f5f5f5f5f5f\" DigestAlg=\"" ++
    algorithm ++ "\"></Measurement>"

/-- The host with this document. -/
def measured (algorithm : String) : HostManifest :=
  { manifest with measurementXmls := [document algorithm] }

set_option maxRecDepth 4000 in
theorem answers_rsa (authorities : CertificatePool) (c : Certificate) : authorities.Answers c :=
  fun _ => ⟨_, rfl⟩

/-- The library answers about flavors whose signature is left out. -/
theorem answered_lenient (m : HostManifest) (time : Int) (f : SignedFlavor) :
    lenient.Answered m time f where
  aik _ c _ _ := answers_rsa _ c
  tag _ c _ _ := answers_rsa _ c
  signature := nofun

/-- What evaluation has to tell about the host: the document names the algorithm, and the flavor
can be turned into rules. -/
theorem usable_measured (algorithm : String)
    (read : ((MeasurementLog.findFor flavorId [document algorithm]).toOption.map
      fun found => found.map (·.digestAlgorithm) == some (some algorithm)) = some true)
    (rules : ((lenient.rulesFor (measured algorithm) moment software).toOption.map
      fun _ => true) = some true) :
    CalendarTime.Names moment ∧ (measured algorithm).Readable ∧
      (∀ f ∈ [software], ∃ rules, lenient.rulesFor (measured algorithm) moment f = .ok rules) ∧
      ∃ log, (measured algorithm).Documents flavorId log ∧
        log.digestAlgorithm = some algorithm := by
  obtain ⟨found, hfound, named⟩ := exists_ok_of_map_eq_some read
  obtain ⟨log, rfl, stated⟩ : ∃ log, found = some log ∧ log.digestAlgorithm = some algorithm := by
    simpa using named
  obtain ⟨rules, hrules, -⟩ := exists_ok_of_map_eq_some rules
  refine ⟨⟨by decide, by decide⟩, ⟨?_, ?_⟩, by simpa using ⟨rules, hrules⟩, log, hfound, stated⟩
  · obtain ⟨logs, hlogs, -⟩ := bind_eq_ok_iff.mp hfound
    exact exists_mapM_ok_iff.mp ⟨logs, hlogs⟩
  · intro text presented
    have same : manifest.aikText? = some aikText := by decide +kernel
    obtain rfl : aikText = text := Option.some.inj (same.symm.trans presented)
    obtain ⟨c, decoded, -⟩ := exists_ok_of_map_eq_some (p := fun _ => true)
      (x := Certificate.decode aikText CertificateUse.aik.role) (by decide +kernel)
    exact ⟨c, decoded⟩

/-- The host is verified if its document names an algorithm. -/
theorem report_of_measured :
    (∀ f ∈ [software], lenient.Answered (measured "SHA384") moment f) ∧
    lenient.registry = .standard ∧ CalendarTime.Names moment ∧ (measured "SHA384").Readable ∧
    (∀ f ∈ [software], ∃ rules, lenient.rulesFor (measured "SHA384") moment f = .ok rules) ∧
    ∃ report, lenient.verifyAllOfAt (measured "SHA384") [software] moment = .ok report := by
  obtain ⟨named, readable, usable, log, document, stated⟩ :=
    usable_measured "SHA384" (by decide +kernel) (by decide +kernel)
  have answered : ∀ f ∈ [software], lenient.Answered (measured "SHA384") moment f :=
    fun f _ => answered_lenient _ _ f
  refine ⟨answered, rfl, named, readable, usable, ?_⟩
  obtain ⟨verdict, -⟩ := exists_report_iff_of_readable answered rfl named readable
    (List.cons_ne_nil _ _) usable
  refine verdict.mpr fun f hf name misnamed => ?_
  obtain rfl := List.mem_singleton.mp hf
  obtain ⟨-, id, other, hid, reported, stated', unknown⟩ := misnamed
  obtain rfl : flavorId = id := Option.some.inj hid
  obtain rfl : log = other := by simpa using document.symm.trans reported
  obtain rfl : "SHA384" = name := by simpa [stated] using stated'
  exact absurd unknown (by decide +kernel)

/-- The host is not verified if its document names none, although the flavor can be turned into
rules and the report of the host can be read. -/
theorem error_of_measured :
    (∀ f ∈ [software], lenient.Answered (measured "MD5") moment f) ∧
    lenient.registry = .standard ∧ CalendarTime.Names moment ∧ (measured "MD5").Readable ∧
    (∀ f ∈ [software], ∃ rules, lenient.rulesFor (measured "MD5") moment f = .ok rules) ∧
    lenient.verifyAllOfAt (measured "MD5") [software] moment =
      .error (.measurement (.unknownAlgorithm "MD5")) := by
  obtain ⟨named, readable, usable, -⟩ :=
    usable_measured "MD5" (by decide +kernel) (by decide +kernel)
  refine ⟨fun f _ => answered_lenient _ _ f, rfl, named, readable, usable, ?_⟩
  obtain ⟨e, failed, unknown⟩ : ∃ e,
      lenient.verifyAllOfAt (measured "MD5") [software] moment = .error e ∧
        (e == .measurement (.unknownAlgorithm "MD5")) = true :=
    exists_error_of_match (by decide +kernel)
  rw [failed, eq_of_beq unknown]

end Sample

end HostTrust
