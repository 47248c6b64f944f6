/-
HostTrust.Proofs.CertificateWindow — certificates over time.

A certificate has a first second and a last one, both written in it. At every
moment that calendars name, what the clock shows then decides: before the first
second the certificate is not yet valid, up to and with the last one it is valid,
and after that it has expired (`Certificate.Places`). So a certificate never goes
back (`Validity.stage`). One that ends before it begins is never valid; it is not
yet valid up to the moment from which it has expired.

Trust does not enter into this. Where the library says whether a certificate is
trusted, its checks find at most one fault of time, and find that the certificate
is not trusted at all times or at none.
-/
import HostTrust.Proofs.IntelVerdict
import HostTrust.Proofs.WrittenTime

namespace HostTrust

open CalendarTime (Names Shows)

/-- How far a certificate has come: before its time, in it, or after it. -/
def Validity.stage : Validity → Nat
  | .notYetValid => 0
  | .valid => 1
  | .expired => 2

namespace Certificate

variable {c : Certificate} {use : CertificateUse} {authorities : CertificatePool}
  {time : Int} {now : CalendarTime} {v : Validity}

/-- What the bounds of a certificate say about a second of the calendar. -/
structure Places (c : Certificate) (now : CalendarTime) (v : Validity) : Prop where
  notYetValid : v = .notYetValid ↔ now < c.notBefore
  valid : v = .valid ↔ c.notBefore ≤ now ∧ now ≤ c.notAfter
  expired : v = .expired ↔ c.notBefore ≤ now ∧ c.notAfter < now

/-! ## Moments -/

/-- The bounds decide as the clock goes. -/
theorem exists_places (first : c.notBefore.isValid) (last : c.notAfter.isValid)
    (shown : Shows time now) : ∃ v, c.validityAt time = .ok v ∧ c.Places now v := by
  obtain ⟨valid, rfl⟩ := CalendarTime.shows_iff.mp shown
  refine ⟨_, validityAt_eq_ok_iff.mpr ⟨CalendarTime.names_toUnix valid, rfl⟩, ?_⟩
  have before := CalendarTime.toUnix_lt_iff valid first
  have after := CalendarTime.toUnix_lt_iff last valid
  by_cases early : now < c.notBefore
  · constructor <;> simp [early, before, CalendarTime.le_iff_not_lt]
  · by_cases late : c.notAfter < now
    · constructor <;> simp [early, late, before, after, CalendarTime.le_iff_not_lt]
    · constructor <;> simp [early, late, before, after, CalendarTime.le_iff_not_lt]

/-- No certificate goes back in time, also if it ends before it begins. -/
theorem stage_le_stage {earlier later : Int} {w : Validity} (le : earlier ≤ later)
    (h : c.validityAt earlier = .ok v) (h' : c.validityAt later = .ok w) : v.stage ≤ w.stage := by
  obtain ⟨-, rfl⟩ := validityAt_eq_ok_iff.mp h
  obtain ⟨-, rfl⟩ := validityAt_eq_ok_iff.mp h'
  by_cases early : earlier < c.notBefore.toUnix
  · simp [early, Validity.stage]
  · have begun : ¬ later < c.notBefore.toUnix := by omega
    by_cases late : c.notAfter.toUnix < earlier
    · have ended : c.notAfter.toUnix < later := by omega
      simp [begun, ended, late, early, Validity.stage]
    · simp only [early, late, begun, if_false]
      split <;> decide

end Certificate

/-! ## Faults -/

namespace CertificateUse

variable {use : CertificateUse} {moment other : CalendarTime}

theorem expired_ne_notYetValid : use.expired moment ≠ use.notYetValid other := fun h => by
  cases use <;> cases congrArg Fault.kind h

theorem notTrusted_ne_expired : use.notTrusted ≠ use.expired moment := fun h => by
  cases use <;> cases congrArg Fault.kind h

theorem notTrusted_ne_notYetValid : use.notTrusted ≠ use.notYetValid moment := fun h => by
  cases use <;> cases congrArg Fault.kind h

end CertificateUse

namespace Certificate

variable [CertificateLibrary] {c : Certificate} {use : CertificateUse}
  {authorities : CertificatePool} {time : Int} {faults : List Fault}

/-- The fault of trust is found at all times or at none. -/
theorem notTrusted_mem_iff (h : c.faultsAt use authorities time = .ok faults) :
    use.notTrusted ∈ faults ↔ ¬ c.ChainsTo authorities := by
  obtain ⟨b, v, trust, -, rfl⟩ := faultsAt_eq_ok_iff.mp h
  have notOfTime : use.notTrusted ∉ c.validityFaults use v := by
    cases v <;> simp [validityFaults, CertificateUse.notTrusted_ne_expired,
      CertificateUse.notTrusted_ne_notYetValid]
  rw [List.mem_append, or_iff_left notOfTime, ← CertificatePool.isTrusted_eq_true_iff, trust]
  cases b <;> simp

/-- Other faults come from the validity. -/
theorem mem_validityFaults_of_mem {fault : Fault} (other : use.notTrusted ≠ fault)
    (h : c.faultsAt use authorities time = .ok faults) (mem : fault ∈ faults) :
    ∃ v, c.validityAt time = .ok v ∧ fault ∈ c.validityFaults use v := by
  obtain ⟨b, v, -, ok, rfl⟩ := faultsAt_eq_ok_iff.mp h
  have notOfTrust : fault ∉ if b then [] else [use.notTrusted] := by
    cases b <;> simp [other.symm]
  exact ⟨v, ok, (List.mem_append.mp mem).resolve_left notOfTrust⟩

theorem not_expired_and_notYetValid {moment moment' : CalendarTime}
    (h : c.faultsAt use authorities time = .ok faults) :
    ¬ (use.expired moment ∈ faults ∧ use.notYetValid moment' ∈ faults) := by
  rintro ⟨expired, notYetValid⟩
  obtain ⟨v, ok, expired⟩ :=
    mem_validityFaults_of_mem CertificateUse.notTrusted_ne_expired h expired
  obtain ⟨v', ok', notYetValid⟩ :=
    mem_validityFaults_of_mem CertificateUse.notTrusted_ne_notYetValid h notYetValid
  obtain rfl : v = v' := Except.ok.inj (ok.symm.trans ok')
  cases v with
  | valid => cases expired
  | expired => simp [validityFaults, CertificateUse.expired_ne_notYetValid.symm] at notYetValid
  | notYetValid => simp [validityFaults, CertificateUse.expired_ne_notYetValid] at expired

end Certificate

namespace Sample

set_option maxRecDepth 4000 in
theorem signer_bounds : ∃ c, Certificate.ofBytes? signerBytes = some c ∧
    c.notBefore = ⟨2020, 1, 1, 0, 0, 0⟩ ∧ c.notAfter = ⟨2030, 1, 1, 0, 0, 0⟩ := by
  have found : (Certificate.ofBytes? signerBytes).map (fun c => (c.notBefore, c.notAfter)) =
      some (⟨2020, 1, 1, 0, 0, 0⟩, ⟨2030, 1, 1, 0, 0, 0⟩) := by decide
  simpa using found

end Sample

end HostTrust
