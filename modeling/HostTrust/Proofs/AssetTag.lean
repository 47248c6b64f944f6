/-
HostTrust.Proofs.AssetTag — asset tags, from the certificate in a flavor to the
register of a host.

A tag is provisioned by extending the digest of its certificate into one register.
The check of that register computes the value on its own; the replay of a log goes
through hexadecimal digits. Both lead to the same value (`Bank.replay_digest`), so
where the log of the register is the one event of the provisioning, the check and
the replay of the log judge alike (`Check.passes_ofAssetTag_iff_replay`).

Which value is expected does not depend on how the flavor gives the certificate
(`RuleBuilder.assetTagChecks_givenBy`).
-/
import HostTrust.Proofs.CertificateText
import HostTrust.Proofs.MeasurementKeys
import HostTrust.Proofs.Validity

namespace HostTrust

open Outcome

/-! ## The register -/

theorem Bank.replay_singleton {b : Bank} {measurement : String} {bytes : Bytes}
    (h : Hex.decode measurement = .ok bytes) :
    b.replay [measurement] = .ok (Hex.encode (b.extend b.initial bytes)) := by
  simp [replay, extendAll, h]

/-- The register check expects what a replay of the digest leads to. -/
theorem Bank.replay_digest (b : Bank) (certificate : Bytes) :
    b.replay [Hex.encode (b.digest certificate)] =
      .ok (PcrValue.ofAssetTag b certificate).value :=
  replay_singleton (Hex.decode_encode _)

/-- The log is the one event of provisioning a tag: the digest of its certificate. -/
def EventLog.RecordsTag (log : EventLog) (bank : Bank) (certificate : Bytes) : Prop :=
  ∃ e, log.events = [e] ∧ Hex.decode e.measurement = .ok (bank.digest certificate)

namespace Check

variable [CertificateLibrary] {bank : Bank} {certificate : Bytes} {m : HostManifest}
  {pcrs : PcrManifest}

theorem passes_ofAssetTag_iff : (ofAssetTag bank certificate).Passes m ↔
    ∃ pcrs actual, m.reportedPcrs = some pcrs ∧
      pcrs.value? ⟨assetTagIndex, bank⟩ = some actual ∧
      Text.sameIgnoringCase actual.value (PcrValue.ofAssetTag bank certificate).value = true := by
  have held : (ofAssetTag bank certificate).Passes m ↔ m.Holds (.ofAssetTag bank certificate) :=
    passes_pcrValue_iff
  rw [held, HostManifest.Holds, PcrValue.ofAssetTag, Hex.trim_encode]

/-- Where the log of the register is the event of the provisioning, its replay judges as the
check of the tag does. -/
theorem passes_ofAssetTag_iff_replay {log : EventLog} (reported : m.reportedPcrs = some pcrs)
    (logged : pcrs.log? ⟨assetTagIndex, bank⟩ = some log) (tag : log.RecordsTag bank certificate) :
    (ofAssetTag bank certificate).Passes m ↔ (replay ⟨assetTagIndex, bank⟩).Passes m := by
  obtain ⟨e, events, decoded⟩ := tag
  have pcr : log.pcr = ⟨assetTagIndex, bank⟩ := PcrManifest.pcr_of_log? logged
  have value : log.replay = .ok (PcrValue.ofAssetTag bank certificate).value := by
    rw [EventLog.replay, pcr, events]
    exact Bank.replay_singleton decoded
  rw [← pcr] at logged
  rw [passes_ofAssetTag_iff, ← pcr, EventLog.passes_replay_iff_of_log reported logged]
  simp [reported, value]

end Check

/-! ## The rules -/

namespace RuleBuilder

variable {c : RuleContext} {cert : Certificate} {bytes : Bytes} {text : String}

/-- The checks of a tag depend on the certificate, and not on how the flavor gives it. -/
theorem assetTagChecks_givenBy (readable : Certificate.ofBytes? bytes = some cert)
    (given : cert.GivenBy text) (h : c.flavor.tagCertificate? = some text) (bank : Bank) :
    assetTagChecks c bank = .ok [.tagCertificate (some cert) c.anchors.assetTagCa c.time,
      .ofAssetTag bank cert.encoded] := by
  simp [assetTagChecks, h, Certificate.decode_givenBy readable given]

/-- **Asset tags are checked exactly.** The check of a tag certificate trusts a host exactly if
it reports, up to letter case, the value that a replay of the certificate's digest leads to; so
it judges as the replay of the register's log does where that log is the event of provisioning
the tag. And every standard builder has a bank in which it expects the tag of the certificate in
the flavor, whether that is given as PEM or as base 64 with blanks anywhere. -/
theorem asset_tag_exact [CertificateLibrary] :
    (∀ (bank : Bank) (certificate : Bytes) (m : HostManifest) (markers : List FlavorPart),
      ∃ value r, bank.replay [Hex.encode (bank.digest certificate)] = .ok value ∧
        ((Check.ofAssetTag bank certificate).rule markers).judge m = .ok r ∧
        (r.trusted = true ↔ ∃ pcrs actual, m.reportedPcrs = some pcrs ∧
          pcrs.value? ⟨assetTagIndex, bank⟩ = some actual ∧
          Text.sameIgnoringCase actual.value value = true) ∧
        ∀ pcrs log markers', m.reportedPcrs = some pcrs →
          pcrs.log? ⟨assetTagIndex, bank⟩ = some log → log.RecordsTag bank certificate →
            ∃ r', ((Check.replay ⟨assetTagIndex, bank⟩).rule markers').judge m = .ok r' ∧
              r.trusted = r'.trusted) ∧
    ∀ vendor tpm builder, BuilderRegistry.standard.builder? vendor tpm = some builder →
      ∃ bank, ∀ (c : RuleContext) bytes cert text, Certificate.ofBytes? bytes = some cert →
        cert.GivenBy text → c.flavor.tagCertificate? = some text →
          builder.rules c .assetTag = .ok
            [(Check.tagCertificate (some cert) c.anchors.assetTagCa c.time).rule [.assetTag],
              (Check.ofAssetTag bank cert.encoded).rule [.assetTag]] := by
  refine ⟨fun bank certificate m markers => ?_, fun vendor tpm builder registered => ?_⟩
  · obtain ⟨r, judged⟩ :
        ∃ r, ((Check.ofAssetTag bank certificate).rule markers).judge m = .ok r := ⟨_, rfl⟩
    refine ⟨_, r, bank.replay_digest certificate, judged, ?_, ?_⟩
    · rw [Check.trusted_iff_passes judged, Check.passes_ofAssetTag_iff]
    · intro pcrs log markers' reported logged tag
      obtain ⟨r', judged'⟩ :
          ∃ r, ((Check.replay ⟨assetTagIndex, bank⟩).rule markers').judge m = .ok r := ⟨_, rfl⟩
      refine ⟨r', judged', Bool.eq_iff_iff.mpr ?_⟩
      rw [Check.trusted_iff_passes judged, Check.trusted_iff_passes judged',
        Check.passes_ofAssetTag_iff_replay reported logged tag]
  · obtain ⟨bank, checks⟩ : ∃ bank, ∀ c cs, assetTagChecks c bank = .ok cs →
        builder.rules c .assetTag = .ok (cs.map fun k => k.rule [.assetTag]) := by
      rcases BuilderRegistry.standard_cases registered with ⟨-, rfl⟩ | ⟨-, layout, rfl⟩
      · exact ⟨.sha256, fun c cs h => by simp [intel, ofChecks, h]⟩
      · exact ⟨layout.bank, fun c cs h => by simp [vmware, ofChecks, h]⟩
    exact ⟨bank, fun c bytes cert text readable given h =>
      checks c _ (assetTagChecks_givenBy readable given h bank)⟩

end RuleBuilder

namespace Sample

/-- A tag certificate in base 64, in two rows. -/
def tagRow : String := "MEgwOwIBATAFBgMrZXAwADAeFw0yMDAxMDEwMDAwMDBaFw0zMDAxMDEwMDAwMDBa"

def tagLastRow : String := "MAAwCzAFBgMrZXADAgABMAUGAytlcAMCAAE="

def tagBytes : Bytes := (Base64.decode (tagRow ++ tagLastRow)).getD []

/-- The certificate as PEM. -/
def tagPem : String :=
  "\n-----BEGIN CERTIFICATE-----\r\n" ++ tagRow ++ "\n" ++ tagLastRow ++
    "\r\n-----END CERTIFICATE----- "

/-- The certificate in base 64 with blanks. -/
def tagSpaced : String := tagRow ++ " \t" ++ tagLastRow

theorem givenBy_tagPem {cert : Certificate}
    (written : Base64.encodeChars cert.encoded = tagRow.toList ++ tagLastRow.toList) :
    cert.GivenBy tagPem := by
  have rows : Pem.OnLines (Base64.encodeChars cert.encoded)
      (tagRow.toList ++ ['\n'] ++ (tagLastRow.toList ++ ['\r', '\n'] ++ [])) := by
    rw [written, ← List.append_nil tagLastRow.toList]
    exact .line (by decide) (.inl rfl) (.line (by decide) (.inr rfl) .none)
  have split : tagPem.toList = ['\n'] ++ (Pem.beginning ++ ("CERTIFICATE".toList ++ Pem.dashes) ++
      ['\r', '\n'] ++ (tagRow.toList ++ ['\n'] ++ (tagLastRow.toList ++ ['\r', '\n'] ++ []) ++
        (Pem.ending ++ ("CERTIFICATE".toList ++ Pem.dashes)))) ++ [' '] := by
    decide +kernel
  exact .pem rfl ⟨_, _, .inr rfl, rows, rfl⟩ (by simp [Text.isBlank]) (by simp [Text.isBlank]) split

/-- What the rules for a tag on an Intel host depend on. -/
def tagContext (text : String) : RuleContext where
  signedFlavor := ⟨{ flavor .assetTag [] with external := some ⟨some ⟨some ⟨text⟩⟩⟩ }, ""⟩
  manifest := .blank
  anchors := anchors
  time := moment

/-- The log of provisioning a tag. -/
def tagLog (certificate : Bytes) : EventLog :=
  ⟨⟨assetTagIndex, .sha256⟩, [event (Hex.encode (Bank.sha256.digest certificate))]⟩

/-- Both texts lead to the same rules; the check of the register and the replay of its log trust
a host with the tag. -/
theorem tag_given_twice :
    ∃ cert, Certificate.ofBytes? tagBytes = some cert ∧
      RuleBuilder.intel.rules (tagContext tagPem) .assetTag =
        RuleBuilder.intel.rules (tagContext tagSpaced) .assetTag ∧
      ∃ m r r', ((Check.ofAssetTag .sha256 cert.encoded).rule []).judge m = .ok r ∧
        ((Check.replay ⟨assetTagIndex, .sha256⟩).rule []).judge m = .ok r' ∧
        r.trusted = true ∧ r'.trusted = true := by
  obtain ⟨registers, rules⟩ := RuleBuilder.asset_tag_exact
  obtain ⟨cert, readable, encoded⟩ : ∃ cert, Certificate.ofBytes? tagBytes = some cert ∧
      cert.encoded = tagBytes :=
    Option.map_eq_some_iff.mp (by decide +kernel)
  have written : Base64.encodeChars cert.encoded = tagRow.toList ++ tagLastRow.toList := by
    rw [encoded]
    decide +kernel
  have spaced : cert.GivenBy tagSpaced := .base64 (by rw [written]; decide +kernel)
  refine ⟨cert, readable, ?_, ?_⟩
  · obtain ⟨bank, build⟩ := rules .intel .v20 .intel rfl
    rw [build (tagContext tagPem) _ cert _ readable (givenBy_tagPem written) rfl,
      build (tagContext tagSpaced) _ cert _ readable spaced rfl]
    rfl
  · obtain ⟨pcrs, reported, value, logged⟩ := (tagLog cert.encoded).exists_reportedWith
      (PcrValue.ofAssetTag .sha256 cert.encoded).value
    obtain ⟨_, r, replayed, judged, trusted, alike⟩ := registers .sha256 cert.encoded _ []
    obtain ⟨r', judged', same⟩ := alike pcrs _ [] reported logged
      ⟨_, rfl, Hex.decode_encode _⟩
    obtain rfl := Except.ok.inj ((Bank.sha256.replay_digest cert.encoded).symm.trans replayed)
    have clean : r.trusted = true :=
      trusted.mpr ⟨pcrs, _, reported, value, Text.sameIgnoringCase_refl _⟩
    exact ⟨_, r, r', judged, judged', clean, same ▸ clean⟩

end Sample

end HostTrust
