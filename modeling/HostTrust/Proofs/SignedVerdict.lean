/-
HostTrust.Proofs.SignedVerdict — no verdict of trust without signatures.

Unless signatures are left out, the rules of each flavor end with the one about
its signature, whatever builder has made the others. So the evaluation of a
flavor ends with the result of that rule (`getLast?_results`), and a host that
is trusted against several flavors is trusted against flavors that are all
signed by the configured signer (`signed_of_trusted`).
-/
import HostTrust.Proofs.IntelVerdict

namespace HostTrust

open Outcome

namespace TrustVerifier

variable [CertificateLibrary] {v : TrustVerifier} {m : HostManifest} {time : Int}

/-- The result of the signature rule on a flavor for a part. -/
def signatureResult (v : TrustVerifier) (f : SignedFlavor) (part : FlavorPart) :
    Except VerificationError RuleResult := do
  let s := FlavorSignature.ofFlavor f v.anchors.flavorSigning v.anchors.flavorCa
  return .ofFaults (.ofRule "FlavorTrusted" [part]) f.flavor.id? (← s.faults) []

theorem judge_signatureCheck {f : SignedFlavor} {part : FlavorPart} :
    (·.withFlavorId f.flavor.id?) <$>
        ((RuleContext.signatureCheck ⟨f, m, v.anchors, time⟩).rule [part]).judge m =
      v.signatureResult f part := by
  show _ <$> _ <$> _ <$> FlavorSignature.faults _ = _
  unfold signatureResult
  dsimp only
  cases (FlavorSignature.ofFlavor f v.anchors.flavorSigning v.anchors.flavorCa).faults <;> rfl

/-- The evaluation of a flavor ends with the result about its signature. -/
theorem getLast?_results {f : SignedFlavor} {part : FlavorPart} {rs : List RuleResult}
    (on : v.skipSignature = false) (described : f.flavor.part = .ok part)
    (h : v.results m time f = .ok rs) :
    ∃ x, v.signatureResult f part = .ok x ∧ rs.getLast? = some x := by
  simp only [results, bind_eq_ok_iff] at h
  obtain ⟨rules, hrules, hrs⟩ := h
  obtain ⟨part', -, -, -, static, derived, hpart, -, -, -, -, -, rfl⟩ :=
    RuleContext.rules_eq_ok_iff.mp hrules
  obtain rfl : part = part' := by simpa [RuleContext.flavor, described] using hpart
  -- Whatever comes before, the signature is judged last.
  obtain ⟨before, last, -, hlast, rfl⟩ := mapM_append_eq_ok_iff.mp hrs
  obtain ⟨x, judged, rfl⟩ : ∃ x, v.signatureResult f part = .ok x ∧ [x] = last := by
    simpa only [RuleContext.signatureRules, on, List.mapM_cons, List.mapM_nil,
      judge_signatureCheck, Bool.false_eq_true, if_false, bind_eq_ok_iff, pure_eq_ok_iff,
      exists_eq_left'] using hlast
  exact ⟨x, judged, by simp⟩

theorem signed_of_faultless {f : SignedFlavor} {rs : List RuleResult}
    (on : v.skipSignature = false) (h : v.results m time f = .ok rs)
    (clean : ∀ x ∈ rs, x.faults = []) : f.SignedUnder v.anchors := by
  obtain ⟨_, _, _, _, _, _, -, -, -, -, -, -, verdict⟩ := faultless_iff_of_results h
  exact (verdict.mp clean).2.2 on

/-- Free of faults, it ends with the clean result about the signature. -/
theorem getLast?_of_faultless {f : SignedFlavor} {part : FlavorPart} {rs : List RuleResult}
    (on : v.skipSignature = false) (described : f.flavor.part = .ok part)
    (h : v.results m time f = .ok rs) (clean : ∀ x ∈ rs, x.faults = []) :
    rs.getLast? = some ⟨.ofRule "FlavorTrusted" [part], f.flavor.id?, true, [], [], rfl⟩ := by
  obtain ⟨x, judged, last⟩ := getLast?_results on described h
  obtain ⟨faults, -, made⟩ := bind_eq_ok_iff.mp judged
  obtain rfl := pure_eq_ok_iff.mp made
  obtain rfl : faults = [] := clean _ (List.mem_of_getLast? last)
  exact last

/-- A host is trusted only against flavors that are all signed. -/
theorem signed_of_trusted {flavors : List SignedFlavor} {report : TrustReport}
    (on : v.skipSignature = false) (ok : v.verifyAllOfAt m flavors time = .ok report)
    (trusted : report.trusted = true) :
    v.anchors.flavorCa.isEmpty = false ∧
      ∃ evaluations, report.results = evaluations.flatten ∧
        List.Forall₂ (fun f rs => v.results m time f = .ok rs ∧ f.SignedUnder v.anchors ∧
          ∃ part, f.flavor.part = .ok part ∧
            rs.getLast? = some ⟨.ofRule "FlavorTrusted" [part], f.flavor.id?, true, [], [], rfl⟩)
          flavors evaluations := by
  obtain ⟨nonempty, outcomes, evaluated, -⟩ := verifyAllOfAt_eq_ok_iff.mp ok
  have clean := ((trusted_verifyAllOfAt_iff ok evaluated).mp trusted).2
  have both : List.Forall₂ (fun f o => (∀ x ∈ o.2, x.faults = []) ∧ v.Evaluates m time f o)
      flavors outcomes := ((List.forall₂_and_left _ _).mpr ⟨clean, evaluated.flip⟩).flip
  have each : List.Forall₂ (fun f o => v.results m time f = .ok o.2 ∧ f.SignedUnder v.anchors ∧
      ∃ part, f.flavor.part = .ok part ∧
        o.2.getLast? = some ⟨.ofRule "FlavorTrusted" [part], f.flavor.id?, true, [], [], rfl⟩)
      flavors outcomes := by
    refine both.imp ?_
    rintro f ⟨part, rs⟩ ⟨faultless, described, hrs⟩
    exact ⟨hrs, signed_of_faultless on hrs faultless, part, described,
      getLast?_of_faultless on described hrs faultless⟩
  constructor
  · obtain ⟨f, hf⟩ := List.exists_mem_of_ne_nil _ nonempty
    obtain ⟨o, -, -, ⟨-, signer, -, -, trusted, -⟩, -⟩ := exists_right_of_mem each hf
    simpa [CertificatePool.isEmpty] using trusted.nonempty
  · refine ⟨outcomes.map Prod.snd, ?_, List.forall₂_map_right_iff.mpr each⟩
    rw [results_of_trusted ok evaluated trusted, List.flatMap_def]

end TrustVerifier

namespace Sample

open TrustVerifier

/-- The host is trusted against the flavor for its platform, taken as a list. -/
theorem verifyAllOfAt_platform : ∃ report,
    verifier.verifyAllOfAt manifest [platform] moment = .ok report ∧ report.trusted = true := by
  obtain ⟨rs, hrs, any, clean⟩ := results_platform
  have described : platform.flavor.part = .ok .platform := by decide
  exact trusted_verifyAllOfAt_singleton described hrs any clean

theorem signed_platform : verifier.skipSignature = false ∧ ∃ report,
    verifier.verifyAllOfAt manifest [platform] moment = .ok report ∧ report.trusted = true ∧
      platform.SignedUnder anchors := by
  obtain ⟨report, ok, trusted⟩ := verifyAllOfAt_platform
  obtain ⟨-, evaluations, -, each⟩ := signed_of_trusted (v := verifier) rfl ok trusted
  obtain ⟨rs, -, -, signed, -⟩ := exists_right_of_mem each (.head _)
  exact ⟨rfl, report, ok, trusted, signed⟩

end Sample

end HostTrust
