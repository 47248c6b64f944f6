/-
HostTrust.Proofs.RuleSet — which rules a flavor asks for.

The policies of a flavor are turned into checks one after the other, with a
note of the registers whose replay is checked already. `mem_checksAfter_iff`
tells the members of the outcome without that note: the value and the events of
each policy, and the replay of each register whose events are checked. So a
host passes all of them exactly if it meets each policy (`passes_checks_iff`),
whatever the order of the policies and however often a register occurs.

`rules_eq_ok_iff` takes all rules of a flavor apart: those of the builder for
its vendor and TPM, those of the policies if the builder uses them, and last
the signature. `faultless_iff_of_results` carries this over to what their
evaluation gives; the verdicts of the modules after this one start from it.
-/
import HostTrust.Proofs.Passing

namespace HostTrust

open Outcome

namespace PcrPolicy

/-- What a policy asks for, said of what the host reports. -/
structure MetBy (p : PcrPolicy) (m : HostManifest) : Prop where
  /-- The register has the value, if the policy asks for it. -/
  value : p.matchesValue = true → m.Holds p.expectedValue
  /-- The log has the expected keys and no others, apart from events with excluded tags. -/
  equal : ∀ e, p.logEquals = some e → m.LogsExactly ⟨p.pcr, e.events⟩ e.excludeTags
  /-- The log has all expected keys. -/
  included : ∀ events, p.logIncludes = some events → m.LogsAll ⟨p.pcr, events⟩
  /-- The log leads to the value of the register, if the policy asks for events at all. -/
  replayed : p.asksForEvents = true → m.LogReplays p.pcr

/-- The members of the checks of policies. That the replay of a register is checked only once
does not show: it is checked if any policy asks for events of the register. -/
theorem mem_checksAfter_iff {checked : List Pcr} {policies : List PcrPolicy} {cs : List Check}
    (h : checksAfter checked policies = .ok cs) {c : Check} :
    c ∈ cs ↔ ∃ p ∈ policies, c ∈ p.valueChecks ∨ c ∈ p.eventChecks ∨
      (p.asksForEvents = true ∧ p.pcr ∉ checked ∧ c = .replay p.pcr) := by
  induction policies generalizing checked cs with
  | nil =>
    obtain rfl : [] = cs := by simpa [checksAfter] using h
    simp
  | cons p rest ih =>
    simp only [checksAfter, bind_eq_ok_iff, pure_eq_ok_iff] at h
    obtain ⟨-, -, later, hlater, rfl⟩ := h
    have replays : c ∈ p.replayChecks checked ↔
        p.asksForEvents = true ∧ p.pcr ∉ checked ∧ c = .replay p.pcr := by
      unfold replayChecks
      by_cases asks : p.asksForEvents = true <;> by_cases seen : p.pcr ∈ checked <;>
        simp [asks, seen]
    simp only [List.mem_append, List.mem_cons, exists_eq_or_imp, replays, ih hlater]
    by_cases asks : p.asksForEvents = true
    · simp only [asks, if_true, true_and, or_assoc, List.mem_cons, not_or]
      refine or_congr_right (or_congr_right ?_)
      constructor
      · rintro (first | ⟨q, hq, hv | he | ⟨hasks, ⟨-, unseen⟩, hc⟩⟩)
        · exact .inl first
        · exact .inr ⟨q, hq, .inl hv⟩
        · exact .inr ⟨q, hq, .inr (.inl he)⟩
        · exact .inr ⟨q, hq, .inr (.inr ⟨hasks, unseen, hc⟩)⟩
      · rintro (first | ⟨q, hq, hv | he | ⟨hasks, unseen, hc⟩⟩)
        · exact .inl first
        · exact .inr ⟨q, hq, .inl hv⟩
        · exact .inr ⟨q, hq, .inr (.inl he)⟩
        · -- For the register of `p` itself, `p` has asked for the replay already.
          by_cases same : q.pcr = p.pcr
          · exact .inl ⟨same ▸ unseen, same ▸ hc⟩
          · exact .inr ⟨q, hq, .inr (.inr ⟨hasks, ⟨same, unseen⟩, hc⟩)⟩
    · simp [asks, or_assoc]

variable [CertificateLibrary] {p : PcrPolicy} {m : HostManifest}

theorem passes_valueChecks_iff :
    (∀ c ∈ p.valueChecks, c.Passes m) ↔ (p.matchesValue = true → m.Holds p.expectedValue) := by
  unfold valueChecks
  by_cases asks : p.matchesValue = true <;> simp [asks, Check.passes_pcrValue_iff]

theorem passes_eventChecks_iff :
    (∀ c ∈ p.eventChecks, c.Passes m) ↔
      (∀ e, p.logEquals = some e → m.LogsExactly ⟨p.pcr, e.events⟩ e.excludeTags) ∧
      ∀ events, p.logIncludes = some events → m.LogsAll ⟨p.pcr, events⟩ := by
  unfold eventChecks
  cases p.logEquals <;> cases p.logIncludes <;>
    simp [Check.passes_equalEvents_iff, Check.passes_includedEvents_iff]

/-- A host passes the checks of policies exactly if it meets each of them. -/
theorem passes_checks_iff {policies : List PcrPolicy} {cs : List Check}
    (h : checks policies = .ok cs) :
    (∀ c ∈ cs, c.Passes m) ↔ ∀ p ∈ policies, p.MetBy m := by
  have member : ∀ c, c ∈ cs ↔ ∃ p ∈ policies, c ∈ p.valueChecks ∨ c ∈ p.eventChecks ∨
      (p.asksForEvents = true ∧ c = .replay p.pcr) := by
    intro c
    simpa using mem_checksAfter_iff (show checksAfter [] policies = .ok cs from h)
  constructor
  · intro pass p hp
    have value := passes_valueChecks_iff.mp fun c hc =>
      pass c ((member c).mpr ⟨p, hp, .inl hc⟩)
    have events := passes_eventChecks_iff.mp fun c hc =>
      pass c ((member c).mpr ⟨p, hp, .inr (.inl hc)⟩)
    refine ⟨value, events.1, events.2, fun asks => Check.passes_replay_iff.mp ?_⟩
    exact pass _ ((member _).mpr ⟨p, hp, .inr (.inr ⟨asks, rfl⟩)⟩)
  · intro met c hc
    obtain ⟨p, hp, hv | he | ⟨asks, rfl⟩⟩ := (member c).mp hc
    · exact passes_valueChecks_iff.mpr (met p hp).value c hv
    · exact passes_eventChecks_iff.mpr ⟨(met p hp).equal, (met p hp).included⟩ c he
    · exact Check.passes_replay_iff.mpr ((met p hp).replayed asks)

end PcrPolicy

namespace RuleContext

variable [CertificateLibrary] {c : RuleContext} {registry : BuilderRegistry} {skip : Bool}

/-- The rule about the signature, unless it is left out. -/
def signatureRules (c : RuleContext) (skip : Bool) (part : FlavorPart) : List Rule :=
  if skip then [] else [c.signatureCheck.rule [part]]

/-- The rules of the policies, for builders that use them. -/
def policyRules (c : RuleContext) (builder : RuleBuilder) (part : FlavorPart) :
    Except VerificationError (List Rule) :=
  if builder.usesPolicies then PcrPolicy.rules c.flavor.pcrs part else pure []

omit [CertificateLibrary] in
theorem builder_eq_ok_iff {vendor : Vendor} {tpm : TpmVersion} {builder : RuleBuilder} :
    registry.builder vendor tpm = .ok builder ↔ registry.builder? vendor tpm = some builder := by
  unfold BuilderRegistry.builder
  cases registry.builder? vendor tpm <;> simp

/-- The rules of a flavor are those of its builder, those of its policies, and the signature. -/
theorem rules_eq_ok_iff {rules : List Rule} :
    c.rules registry skip = .ok rules ↔
      ∃ part vendor tpm builder static derived, c.flavor.part = .ok part ∧
        c.vendor = .ok vendor ∧ c.tpmVersion = .ok tpm ∧
        registry.builder? vendor tpm = some builder ∧ builder.rules c part = .ok static ∧
        c.policyRules builder part = .ok derived ∧
        static ++ derived ++ c.signatureRules skip part = rules := by
  simp only [RuleContext.rules, bind_eq_ok_iff, builder_eq_ok_iff, policyRules, signatureRules]
  constructor
  · rintro ⟨part, hpart, vendor, hvendor, tpm, htpm, builder, hbuilder, static, hstatic, h⟩
    refine ⟨part, vendor, tpm, builder, static, ?_⟩
    split at h
    · next uses =>
      obtain ⟨derived, hderived, hrules⟩ := bind_eq_ok_iff.mp h
      exact ⟨derived, hpart, hvendor, htpm, hbuilder, hstatic, by simpa [uses] using hderived,
        by simpa using hrules⟩
    · next unused =>
      exact ⟨[], hpart, hvendor, htpm, hbuilder, hstatic, by simp [unused], by simpa using h⟩
  · rintro ⟨part, vendor, tpm, builder, static, derived, hpart, hvendor, htpm, hbuilder,
      hstatic, hderived, rfl⟩
    refine ⟨part, hpart, vendor, hvendor, tpm, htpm, builder, hbuilder, static, hstatic, ?_⟩
    split at hderived
    · next uses => simp [uses, hderived]
    · next unused =>
      obtain rfl : [] = derived := by simpa using hderived
      simp [unused]

theorem passes_policyRules_iff {builder : RuleBuilder} {part : FlavorPart} {derived : List Rule}
    {m : HostManifest} (uses : builder.usesPolicies = true)
    (h : c.policyRules builder part = .ok derived) :
    (∀ r ∈ derived, r.Passes m) ↔ ∀ p ∈ c.flavor.pcrs, p.MetBy m := by
  simp only [policyRules, uses, if_true, PcrPolicy.rules, bind_eq_ok_iff, pure_eq_ok_iff] at h
  obtain ⟨cs, hcs, rfl⟩ := h
  rw [← PcrPolicy.passes_checks_iff hcs]
  simp [Check.passes_rule_iff]

theorem passes_signatureRules_iff {part : FlavorPart} {m : HostManifest} :
    (∀ r ∈ c.signatureRules skip part, r.Passes m) ↔
      (skip = false → c.signedFlavor.SignedUnder c.anchors) := by
  cases skip <;> simp [signatureRules, Check.passes_rule_iff, signatureCheck,
    Check.passes_flavorSignature_iff, SignedFlavor.valid_signature_iff]

end RuleContext

namespace RuleBuilder

variable [CertificateLibrary] {name : String} {uses : Bool} {c : RuleContext} {part : FlavorPart}
  {rules : List Rule}
  {checks : RuleContext → FlavorPart → Except VerificationError (List Check)}

/-- The rules of a builder of checks are its checks about the part. -/
theorem exists_checks_of_ofChecks (h : (ofChecks name uses checks).rules c part = .ok rules) :
    ∃ cs, checks c part = .ok cs ∧ cs.map (fun k => k.rule [part]) = rules := by
  simpa [ofChecks] using h

/-- They are passed exactly if the checks are. -/
theorem passes_ofChecks_iff {m : HostManifest}
    (h : (ofChecks name uses checks).rules c part = .ok rules) :
    ∃ cs, checks c part = .ok cs ∧
      ((∀ r ∈ rules, r.Passes m) ↔ ∀ k ∈ cs, k.Passes m) := by
  obtain ⟨cs, hcs, rfl⟩ := exists_checks_of_ofChecks h
  refine ⟨cs, hcs, ?_⟩
  simp [Check.passes_rule_iff]

end RuleBuilder

namespace TrustVerifier

variable [CertificateLibrary] {v : TrustVerifier} {m : HostManifest} {time : Int}

/-- What the evaluation of a flavor is made of, and when it is free of faults. -/
theorem faultless_iff_of_results {f : SignedFlavor} {rs : List RuleResult}
    (h : v.results m time f = .ok rs) :
    ∃ part vendor tpm builder static derived, f.flavor.part = .ok part ∧
      RuleContext.vendor ⟨f, m, v.anchors, time⟩ = .ok vendor ∧
      RuleContext.tpmVersion ⟨f, m, v.anchors, time⟩ = .ok tpm ∧
      v.registry.builder? vendor tpm = some builder ∧
      builder.rules ⟨f, m, v.anchors, time⟩ part = .ok static ∧
      RuleContext.policyRules ⟨f, m, v.anchors, time⟩ builder part = .ok derived ∧
      ((∀ x ∈ rs, x.faults = []) ↔ (∀ r ∈ static, r.Passes m) ∧ (∀ r ∈ derived, r.Passes m) ∧
        (v.skipSignature = false → f.SignedUnder v.anchors)) := by
  obtain ⟨rules, hrules, -⟩ := results_eq_ok_iff.mp h
  have passed := faultless_iff_passes hrules h
  obtain ⟨part, vendor, tpm, builder, static, derived, hpart, hvendor, htpm, hbuilder, hstatic,
    hderived, rfl⟩ := RuleContext.rules_eq_ok_iff.mp hrules
  refine ⟨part, vendor, tpm, builder, static, derived, hpart, hvendor, htpm, hbuilder, hstatic,
    hderived, ?_⟩
  simp only [passed, List.mem_append, or_imp, forall_and, RuleContext.passes_signatureRules_iff,
    and_assoc]

/-- A trusted host passes all rules of each flavor. -/
theorem exists_faultless_of_trusted {flavors : List SignedFlavor} {report : TrustReport}
    (ok : v.verifyAllOfAt m flavors time = .ok report) (trusted : report.trusted = true)
    {f : SignedFlavor} (hf : f ∈ flavors) :
    ∃ rs, v.results m time f = .ok rs ∧ ∀ x ∈ rs, x.faults = [] := by
  obtain ⟨-, outcomes, evaluated, -⟩ := verifyAllOfAt_eq_ok_iff.mp ok
  have clean := ((trusted_verifyAllOfAt_iff ok evaluated).mp trusted).2
  obtain ⟨o, ho, -, hrs⟩ := exists_right_of_mem evaluated hf
  exact ⟨o.2, hrs, clean o ho⟩

end TrustVerifier

end HostTrust
