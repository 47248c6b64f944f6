/-
HostTrust.Proofs.FixedLayout — what flavors for VMware hosts ask for.

The layout of the registers is fixed by the version of the TPM (`PcrLayout.ofVersion`),
and of the policies of a flavor only the first one for each register of the layout is
looked at. `RuleContext.rules_of_vmware` gives all rules of such a flavor: those of the
layout and the signature. `exists_rules_vmware_iff` tells when there are rules of the
layout, `passes_vmware_iff` what a host has to report to pass them, said of the data
alone (`PcrLayout.MetBy`), and `rules_vmware_congr` that no other policies enter them.
-/
import HostTrust.Proofs.Validity

namespace HostTrust

open Outcome

/-! ## Policies -/

namespace PcrPolicy

variable {p : PcrPolicy}

/-- The policy gives events both ways. -/
def Conflicting (p : PcrPolicy) : Prop := p.logEquals.isSome = true ∧ p.logIncludes.isSome = true

instance (p : PcrPolicy) : Decidable p.Conflicting := inferInstanceAs (Decidable (_ ∧ _))

theorem validate_eq_ok_iff {u : Unit} : p.validate = .ok u ↔ ¬ p.Conflicting := by
  unfold validate Conflicting
  split
  · next conflict => simp [conflict]
  · next consistent => simp [consistent]

theorem validate_of_conflicting (h : p.Conflicting) :
    p.validate = .error (.conflictingPolicy p.pcr) :=
  if_pos h

/-- Events with the tag do not count in the log of modules: they differ from host to host, or the
policy excludes them. -/
def LeavesOut (p : PcrPolicy) (tag : String) : Prop :=
  tag ∈ RuleBuilder.hostSpecificTags ∨ ∃ e, p.logEquals = some e ∧ tag ∈ e.excludeTags.toList

theorem mem_moduleLogExclusions_iff {tag : String} :
    tag ∈ (RuleBuilder.moduleLogExclusions p).toList ↔ p.LeavesOut tag := by
  rw [RuleBuilder.moduleLogExclusions, NameSet.mem_ofList_iff, List.mem_append, LeavesOut]
  cases p.logEquals <;> simp

end PcrPolicy

/-- The log has an event with the key that counts in the log of modules. -/
def EventLog.HasModule (log : EventLog) (p : PcrPolicy) (key : String × String) : Prop :=
  ∃ e ∈ log.events, (∀ t ∈ e.tags.toList, ¬ p.LeavesOut t) ∧ e.key = key

/-- The host reports a log with the keys of the expected one and no others, not counting events
that the policy leaves out. -/
def HostManifest.LogsModules (m : HostManifest) (p : PcrPolicy) (expected : EventLog) : Prop :=
  ∃ pcrs actual, m.reportedPcrs = some pcrs ∧ pcrs.log? expected.pcr = some actual ∧
    ∀ key, expected.HasModule p key ↔ actual.HasModule p key

theorem HostManifest.logsModules_iff {m : HostManifest} {p : PcrPolicy} {expected : EventLog} :
    m.LogsExactly expected (RuleBuilder.moduleLogExclusions p) ↔ m.LogsModules p expected := by
  simp only [LogsExactly, LogsModules, EventLog.HasKey, EventLog.HasModule,
    PcrPolicy.mem_moduleLogExclusions_iff]

/-- The check is about the value or the log of a register. -/
inductive Check.AboutRegister : Check → Prop where
  | value (expected : PcrValue) : AboutRegister (.pcrValue expected)
  | equal (expected : EventLog) (exclude : NameSet) :
    AboutRegister (.equalEvents expected exclude)
  | included (expected : EventLog) : AboutRegister (.includedEvents expected)

namespace RuleBuilder

/-! ## Checks -/

variable {c : RuleContext} {part : FlavorPart} {m : HostManifest} {cs : List Check}

/-- The tag certificate has to be readable, where the flavor has one. -/
theorem exists_assetTagChecks_iff (bank : Bank) : (∃ cs, assetTagChecks c bank = .ok cs) ↔
    ∀ text, c.flavor.tagCertificate? = some text →
      ∃ cert, Certificate.decode text CertificateUse.assetTag.role = .ok cert := by
  unfold assetTagChecks
  cases c.flavor.tagCertificate? <;> simp

namespace PcrLayout

variable {l : PcrLayout} {f : Flavor} {check : PcrPolicy → EventLog → Check}

theorem passes_valueChecks_iff [CertificateLibrary] {indices : List (Fin 24)} :
    (∀ k ∈ l.valueChecks f indices, k.Passes m) ↔
      ∀ index ∈ indices, ∀ p, l.policy? f index = some p → m.Holds p.expectedValue := by
  simp only [valueChecks, List.forall_mem_map, List.mem_filterMap, Check.passes_pcrValue_iff]
  constructor
  · intro holds index listed p found
    exact holds p ⟨index, listed, found⟩
  · rintro holds p ⟨index, listed, found⟩
    exact holds index listed p found

/-- The log of modules is checked if its first policy is consistent and expects events. -/
theorem moduleLogChecks_eq_ok_iff : l.moduleLogChecks f check = .ok cs ↔
    (∀ p, l.policy? f l.moduleLog = some p → ¬ p.Conflicting) ∧
      ((l.policy? f l.moduleLog).bind fun p => p.expectedLog?.map (check p)).toList = cs := by
  unfold moduleLogChecks
  cases l.policy? f l.moduleLog with
  | none => simp
  | some p => simp [PcrPolicy.validate_eq_ok_iff]

theorem exists_moduleLogChecks_iff (check : PcrPolicy → EventLog → Check) :
    (∃ cs, l.moduleLogChecks f check = .ok cs) ↔
      ∀ p, l.policy? f l.moduleLog = some p → ¬ p.Conflicting := by
  simp [moduleLogChecks_eq_ok_iff]

theorem passes_moduleLogChecks_iff [CertificateLibrary] (h : l.moduleLogChecks f check = .ok cs) :
    (∀ k ∈ cs, k.Passes m) ↔ ∀ p, l.policy? f l.moduleLog = some p →
      ∀ log, p.expectedLog? = some log → (check p log).Passes m := by
  obtain ⟨-, rfl⟩ := moduleLogChecks_eq_ok_iff.mp h
  cases l.policy? f l.moduleLog with
  | none => simp
  | some p => cases expected : p.expectedLog? <;> simp [expected]

theorem aboutRegister_of_mem_valueChecks {indices : List (Fin 24)} :
    ∀ k ∈ l.valueChecks f indices, k.AboutRegister := by
  intro k hk
  obtain ⟨p, -, rfl⟩ := List.mem_map.mp hk
  exact .value p.expectedValue

theorem aboutRegister_of_mem_moduleLogChecks (h : l.moduleLogChecks f check = .ok cs)
    (about : ∀ p log, (check p log).AboutRegister) : ∀ k ∈ cs, k.AboutRegister := by
  obtain ⟨-, rfl⟩ := moduleLogChecks_eq_ok_iff.mp h
  intro k hk
  obtain ⟨p, -, asked⟩ := Option.bind_eq_some_iff.mp (Option.mem_toList.mp hk)
  obtain ⟨log, -, rfl⟩ := Option.map_eq_some_iff.mp asked
  exact about p log

/-! ## The layout -/

/-- The layout of VMware hosts with a version of the TPM. -/
def ofVersion : TpmVersion → PcrLayout
  | .v12 => tpm12
  | .v20 => tpm20

/-- The registers that must have a value, for a part. -/
def indices (l : PcrLayout) : FlavorPart → List (Fin 24)
  | .platform => l.platform
  | .os => l.os
  | _ => []

/-- The registers whose first policy is looked at, for a part. -/
def consulted (l : PcrLayout) : FlavorPart → List (Fin 24)
  | .platform => l.platform
  | .os => l.os ++ [l.moduleLog]
  | .hostUnique => [l.moduleLog]
  | _ => []

/-- What a flavor asks for about a part, said of what the host reports. -/
structure MetBy [CertificateLibrary] (l : PcrLayout) (c : RuleContext) (part : FlavorPart)
    (m : HostManifest) : Prop where
  /-- Each register of the part has the value of the first policy for it, if there is one. -/
  values : ∀ index ∈ l.indices part, ∀ p, l.policy? c.flavor index = some p →
    m.Holds p.expectedValue
  /-- For the part OS, the log of modules is the one of its first policy, if that expects one. -/
  modules : part = .os → ∀ p, l.policy? c.flavor l.moduleLog = some p →
    ∀ log, p.expectedLog? = some log → m.LogsModules p log
  /-- For the part HOST_UNIQUE, the log of modules has all of its keys. -/
  ownModules : part = .hostUnique → ∀ p, l.policy? c.flavor l.moduleLog = some p →
    ∀ log, p.expectedLog? = some log → m.LogsAll log
  /-- For the part ASSET_TAG, the host carries the tag. -/
  tag : part = .assetTag → m.HoldsTag c.flavor l.bank c.anchors.assetTagCa c.time

/-- When the rules of the layout for a part can be built. -/
def Allows (l : PcrLayout) (c : RuleContext) : FlavorPart → Prop
  | .platform => True
  | .os | .hostUnique => ∀ p, l.policy? c.flavor l.moduleLog = some p → ¬ p.Conflicting
  | .software => False
  | .assetTag => ∀ text, c.flavor.tagCertificate? = some text →
    ∃ cert, Certificate.decode text CertificateUse.assetTag.role = .ok cert

end PcrLayout

section Rules

variable [CertificateLibrary] {l : PcrLayout} {rules : List Rule}

theorem standard_vmware (tpm : TpmVersion) :
    BuilderRegistry.standard.builder? .vmware tpm = some (vmware (.ofVersion tpm)) := by
  cases tpm <;> rfl

/-- A layout asks for checks of registers, or else for those of an asset tag. -/
theorem exists_checks_of_vmware (h : (vmware l).rules c part = .ok rules) :
    ∃ cs, cs.map (fun k => k.rule [part]) = rules ∧ part ≠ .software ∧
      ((∀ k ∈ cs, k.AboutRegister) ∨ part = .assetTag ∧ assetTagChecks c l.bank = .ok cs) := by
  obtain ⟨cs, hcs, rfl⟩ := exists_checks_of_ofChecks h
  refine ⟨cs, rfl, ?_⟩
  cases part with
  | platform =>
    obtain rfl : l.valueChecks c.flavor l.platform = cs := by simpa using hcs
    exact ⟨nofun, .inl PcrLayout.aboutRegister_of_mem_valueChecks⟩
  | os =>
    obtain ⟨log, hlog, given⟩ := bind_eq_ok_iff.mp hcs
    obtain rfl := pure_eq_ok_iff.mp given
    have modules := PcrLayout.aboutRegister_of_mem_moduleLogChecks hlog fun _ _ => .equal _ _
    exact ⟨nofun, .inl (List.forall_mem_append.mpr
      ⟨PcrLayout.aboutRegister_of_mem_valueChecks, modules⟩)⟩
  | hostUnique =>
    exact ⟨nofun, .inl (PcrLayout.aboutRegister_of_mem_moduleLogChecks hcs
      fun _ _ => .included _)⟩
  | software => cases hcs
  | assetTag => exact ⟨nofun, .inr ⟨rfl, hcs⟩⟩

theorem exists_rules_vmware_iff :
    (∃ rules, (vmware l).rules c part = .ok rules) ↔ l.Allows c part := by
  cases part with
  | platform => exact iff_of_true ⟨_, rfl⟩ trivial
  | os =>
    rw [PcrLayout.Allows, ← PcrLayout.exists_moduleLogChecks_iff
      fun p log => .equalEvents log (moduleLogExclusions p)]
    simp [vmware, ofChecks]
  | hostUnique =>
    rw [PcrLayout.Allows, ← PcrLayout.exists_moduleLogChecks_iff
      fun _ log => .includedEvents log]
    simp [vmware, ofChecks]
  | software => simp [vmware, ofChecks, PcrLayout.Allows]
  | assetTag =>
    rw [PcrLayout.Allows, ← exists_assetTagChecks_iff l.bank]
    simp [vmware, ofChecks]

/-- The rules of the layout are passed exactly if the host meets what the flavor asks for. -/
theorem passes_vmware_iff (h : (vmware l).rules c part = .ok rules) :
    (∀ r ∈ rules, r.Passes m) ↔ l.MetBy c part m := by
  obtain ⟨cs, hcs, same⟩ := passes_ofChecks_iff (m := m) h
  rw [same]
  cases part with
  | platform =>
    obtain rfl : l.valueChecks c.flavor l.platform = cs := by simpa using hcs
    rw [PcrLayout.passes_valueChecks_iff]
    exact ⟨fun values => ⟨values, nofun, nofun, nofun⟩, PcrLayout.MetBy.values⟩
  | os =>
    obtain ⟨log, hlog, given⟩ := bind_eq_ok_iff.mp hcs
    obtain rfl := pure_eq_ok_iff.mp given
    simp only [List.mem_append, or_imp, forall_and, PcrLayout.passes_valueChecks_iff,
      PcrLayout.passes_moduleLogChecks_iff hlog, Check.passes_equalEvents_iff,
      HostManifest.logsModules_iff]
    constructor
    · rintro ⟨values, modules⟩
      exact ⟨values, fun _ => modules, nofun, nofun⟩
    · intro met
      exact ⟨met.values, met.modules rfl⟩
  | hostUnique =>
    simp only [PcrLayout.passes_moduleLogChecks_iff hcs, Check.passes_includedEvents_iff]
    exact ⟨fun own => ⟨nofun, nofun, fun _ => own, nofun⟩, fun met => met.ownModules rfl⟩
  | software => cases hcs
  | assetTag =>
    rw [passes_assetTagChecks_iff hcs]
    exact ⟨fun tag => ⟨nofun, nofun, nofun, fun _ => tag⟩, fun met => met.tag rfl⟩

end Rules

/-! ## Policies that are not looked at -/

namespace PcrLayout

variable {l : PcrLayout} {f g : Flavor}

/-- The policy is for a register that is looked at for the part. -/
def consults (l : PcrLayout) (part : FlavorPart) (p : PcrPolicy) : Bool :=
  p.pcr.bank == l.bank && (l.consulted part).contains p.pcr.index

/-- The first policy for a register is found among those that are looked at. -/
theorem policy?_congr (same : g.pcrs.filter (l.consults part) = f.pcrs.filter (l.consults part))
    {index : Fin 24} (listed : index ∈ l.consulted part) :
    l.policy? g index = l.policy? f index := by
  have among : ∀ h : Flavor, l.policy? h index =
      (h.pcrs.filter (l.consults part)).find? (·.pcr == ⟨index, l.bank⟩) := by
    intro h
    rw [List.find?_filter]
    refine congrArg (h.pcrs.find? ·) (funext fun p => ?_)
    by_cases here : p.pcr = ⟨index, l.bank⟩ <;> simp [here, consults, listed]
  rw [among, among, same]

theorem valueChecks_congr {indices : List (Fin 24)}
    (same : ∀ index ∈ indices, l.policy? g index = l.policy? f index) :
    l.valueChecks g indices = l.valueChecks f indices := by
  rw [valueChecks, valueChecks, List.filterMap_congr same]

theorem moduleLogChecks_congr {check : PcrPolicy → EventLog → Check}
    (same : l.policy? g l.moduleLog = l.policy? f l.moduleLog) :
    l.moduleLogChecks g check = l.moduleLogChecks f check := by
  rw [moduleLogChecks, moduleLogChecks, same]

end PcrLayout

end RuleBuilder

/-- The flavor with other policies, and with another signature. -/
def SignedFlavor.withPolicies (f : SignedFlavor) (pcrs : List PcrPolicy) (signature : String) :
    SignedFlavor :=
  ⟨{ f.flavor with pcrs }, signature⟩

/-- No other policies enter the rules of the layout than those for the registers looked at. -/
theorem RuleBuilder.rules_vmware_congr [CertificateLibrary] {l : PcrLayout} {f : SignedFlavor}
    {m : HostManifest} {anchors : TrustAnchors} {time : Int} {part : FlavorPart}
    {pcrs : List PcrPolicy}
    (same : pcrs.filter (l.consults part) = f.flavor.pcrs.filter (l.consults part))
    (signature : String) :
    (vmware l).rules ⟨f.withPolicies pcrs signature, m, anchors, time⟩ part =
      (vmware l).rules ⟨f, m, anchors, time⟩ part := by
  have policies : ∀ index ∈ l.consulted part,
      l.policy? (f.withPolicies pcrs signature).flavor index = l.policy? f.flavor index :=
    fun index listed => PcrLayout.policy?_congr same listed
  cases part with
  | platform =>
    have values : l.valueChecks (f.withPolicies pcrs signature).flavor l.platform =
        l.valueChecks f.flavor l.platform := PcrLayout.valueChecks_congr policies
    simp only [vmware, ofChecks, RuleContext.flavor, values]
  | os =>
    have values := PcrLayout.valueChecks_congr fun index listed =>
      policies index (List.mem_append_left _ listed)
    have log := policies l.moduleLog (List.mem_append_right _ (.head _))
    simp only [vmware, ofChecks, RuleContext.flavor, values, PcrLayout.moduleLogChecks_congr log]
  | hostUnique =>
    have log := policies l.moduleLog (.head _)
    simp only [vmware, ofChecks, RuleContext.flavor, PcrLayout.moduleLogChecks_congr log]
  | software => rfl
  | assetTag => rfl

/-- The rules of a flavor for VMware hosts are those of the layout and the signature. -/
theorem RuleContext.rules_of_vmware [CertificateLibrary] {c : RuleContext} {tpm : TpmVersion}
    {part : FlavorPart}
    (vendor : c.vendor = .ok .vmware) (version : c.tpmVersion = .ok tpm)
    (described : c.flavor.part = .ok part) (skip : Bool) :
    c.rules .standard skip = (· ++ c.signatureRules skip part) <$>
      (RuleBuilder.vmware (.ofVersion tpm)).rules c part := by
  have builder : BuilderRegistry.standard.builder .vmware tpm =
      .ok (RuleBuilder.vmware (.ofVersion tpm)) :=
    builder_eq_ok_iff.mpr (RuleBuilder.standard_vmware tpm)
  -- The builder does not use the other policies, so they give no rules.
  have steps : c.rules .standard skip = do
      let static ← (RuleBuilder.vmware (.ofVersion tpm)).rules c part
      return static ++ [] ++ c.signatureRules skip part := by
    rw [RuleContext.rules, described, vendor, version]
    show (BuilderRegistry.standard.builder .vmware tpm >>= _) = _
    rw [builder]
    rfl
  rw [steps]
  cases (RuleBuilder.vmware (.ofVersion tpm)).rules c part with
  | error e => rfl
  | ok static => exact congrArg (fun rules => Except.ok (rules ++ _)) (List.append_nil static)

end HostTrust
