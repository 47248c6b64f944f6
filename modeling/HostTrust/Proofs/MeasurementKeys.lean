/-
HostTrust.Proofs.MeasurementKeys — comparing logs and replaying them mean the
same digests.

A comparison takes a measurement without the blanks around it and in small
letters; a replay reads its digits, in either case and without blanks. On texts
that can be read the two agree: the key is the written form of the bytes
(`Hex.lower_trim_of_decode`). So logs with the same keys, event by event, lead to
the same value wherever both can be replayed, and then to the same verdict. A
blank that a comparison drops is the only difference, for a replay refuses it:
the verdicts agree for every reported value exactly if both logs can be replayed
or neither can (`EventLog.keys_mean_digests`).
-/
import HostTrust.Proofs.ChainBinding
import HostTrust.Proofs.IncrementalReplay
import HostTrust.Proofs.LogComparison

namespace HostTrust

open Outcome

namespace Hex

/-! ## Keys of hexadecimal texts -/

theorem isAscii_of_isDigit {c : Char} (h : isDigit c = true) : Text.isAscii c = true :=
  decide_eq_true (UInt32.lt_iff_toNat_lt.mpr (toNat_lt_of_isDigit h))

theorem isBlank_ofNat : ∀ n < 128, isDigit (Char.ofNat n) = true →
    Text.isBlank (Char.ofNat n) = false := by
  decide

theorem isBlank_of_isDigit {c : Char} (h : isDigit c = true) : Text.isBlank c = false := by
  have digit := isBlank_ofNat c.toNat (toNat_lt_of_isDigit h)
  rw [Char.ofNat_toNat] at digit
  exact digit h

/-- The small form of a digit is the digit that is written for its value. -/
theorem digit_value_ofNat : ∀ n < 128, ∀ v, value? (UInt8.ofNat n) = some v →
    v < 16 ∧ digit v = (Char.ofNat n).toLower := by
  intro n below v read
  revert n v
  decide

theorem digit_of_value {c : Char} {v : Nat} (h : isDigit c = true)
    (read : value? (UInt8.ofNat c.toNat) = some v) : v < 16 ∧ digit v = c.toLower := by
  have written := digit_value_ofNat c.toNat (toNat_lt_of_isDigit h) v read
  rwa [Char.ofNat_toNat] at written

/-- Writing what was read gives the text in small letters. -/
theorem byteChars_of_decodeFrom : ∀ {cs : List Char} {position : Nat} {bytes : Bytes},
    (∀ c ∈ cs, isDigit c = true) → cs.length % 2 = 0 →
      decodeFrom position (Text.encodeChars cs) = .ok bytes →
        bytes.flatMap byteChars = cs.map Char.toLower
  | [], _, _, _, _, read => by
    cases read
    rfl
  | [_], _, _, _, even, _ => by cases even
  | high :: low :: rest, position, bytes, digits, even, read => by
    obtain ⟨first, second, others⟩ : isDigit high = true ∧ isDigit low = true ∧
        ∀ c ∈ rest, isDigit c = true := by simpa using digits
    have written : Text.encodeChars (high :: low :: rest) =
        UInt8.ofNat high.toNat :: UInt8.ofNat low.toNat :: Text.encodeChars rest := by
      simp [Text.encodeChars, encodeChar_of_lt (toNat_lt_of_isDigit first),
        encodeChar_of_lt (toNat_lt_of_isDigit second)]
    rw [written, decodeFrom] at read
    cases hh : value? (UInt8.ofNat high.toNat) with
    | none => simp [hh] at read
    | some h =>
      cases hl : value? (UInt8.ofNat low.toNat) with
      | none => simp [hh, hl] at read
      | some l =>
        simp only [hh, hl, bind_eq_ok_iff, pure_eq_ok_iff] at read
        obtain ⟨later, readLater, rfl⟩ := read
        obtain ⟨smallHigh, digitHigh⟩ := digit_of_value first hh
        obtain ⟨smallLow, digitLow⟩ := digit_of_value second hl
        have byte : (UInt8.ofNat (h * 16 + l)).toNat = h * 16 + l :=
          Text.Utf8State.toNat_ofNat_byte (by omega)
        have parts : (h * 16 + l) / 16 = h ∧ (h * 16 + l) % 16 = l := by omega
        have even' : rest.length % 2 = 0 := by
          simp only [List.length_cons] at even
          omega
        rw [List.flatMap_cons, byteChars_of_decodeFrom others even' readLater, byteChars, byte,
          parts.1, parts.2, digitHigh, digitLow]
        rfl

/-- The key of a text that can be read is the written form of its bytes. -/
theorem lower_trim_of_decode {s : String} {bytes : Bytes} (h : decode s = .ok bytes) :
    Text.lower (Text.trim s) = encode bytes := by
  obtain ⟨even, digits⟩ := exists_decode_iff_wellFormed.mp ⟨bytes, h⟩
  have trimmed : Text.trim s = s := by
    rw [Text.trim, Text.trimChars_eq_self, String.ofList_toList]
    · exact fun c hc => isBlank_of_isDigit (digits c (List.mem_of_mem_head? hc))
    · exact fun c hc => isBlank_of_isDigit (digits c (List.mem_of_mem_getLast? hc))
  have read : decodeFrom 0 (Text.encodeChars s.toList) = .ok bytes := by
    have even' : (Text.encode s).length % 2 = 0 := by
      rw [Text.encode, length_encodeChars_of_digits digits, even]
    rwa [decode, if_pos even'] at h
  rw [trimmed, Text.lower_of_ascii fun c hc => isAscii_of_isDigit (digits c hc), encode,
    byteChars_of_decodeFrom digits even read]

/-- Texts that can be read have one key exactly if they write the same bytes. -/
theorem lower_trim_eq_iff {s t : String} (hs : WellFormed s) (ht : WellFormed t) :
    Text.lower (Text.trim s) = Text.lower (Text.trim t) ↔ decode s = decode t := by
  obtain ⟨bs, readS⟩ := exists_decode_iff_wellFormed.mpr hs
  obtain ⟨cs, readT⟩ := exists_decode_iff_wellFormed.mpr ht
  rw [lower_trim_of_decode readS, lower_trim_of_decode readT, readS, readT, Except.ok.injEq]
  exact ⟨encode_injective, congrArg encode⟩

end Hex

/-! ## Logs with the same keys -/

/-- Values with the same keys write the same bytes. -/
theorem Bank.Decodes.eq_of_keys {values values' : List String} {measured measured' : List Bytes}
    (h : Decodes values measured) (h' : Decodes values' measured')
    (keys : values.map (fun v => Text.lower (Text.trim v)) =
      values'.map fun v => Text.lower (Text.trim v)) : measured = measured' := by
  induction h generalizing values' measured' with
  | nil =>
    obtain rfl : values' = [] := by simpa using keys.symm
    cases h'
    rfl
  | cons read _ ih =>
    cases h' with
    | nil => cases keys
    | cons read' rest' =>
      obtain ⟨here, later⟩ := List.cons.inj keys
      beta_reduce at here
      rw [Hex.lower_trim_of_decode read, Hex.lower_trim_of_decode read'] at here
      rw [Hex.encode_injective here, ih rest' later]

namespace EventLog

variable {a b : EventLog}

/-- The logs are of one register and have as many events, whose measurements have the same keys
one by one. -/
structure SameMeasurements (a b : EventLog) : Prop where
  pcr : a.pcr = b.pcr
  keys : a.events.map (fun e => e.key.1) = b.events.map fun e => e.key.1

theorem SameMeasurements.replay_eq (h : a.SameMeasurements b) {v w : String}
    (one : a.replay = .ok v) (other : b.replay = .ok w) : v = w := by
  obtain ⟨measured, decodes, rfl⟩ := Bank.replay_eq_ok_iff.mp one
  obtain ⟨measured', decodes', rfl⟩ := Bank.replay_eq_ok_iff.mp other
  have keys : (a.events.map Event.measurement).map (fun v => Text.lower (Text.trim v)) =
      (b.events.map Event.measurement).map fun v => Text.lower (Text.trim v) := by
    simpa [Event.key, Function.comp_def] using h.keys
  rw [decodes.eq_of_keys decodes' keys, h.pcr]

/-! ## Verdicts -/

/-- A host that reports a value and a log for a register, and nothing else. -/
def reportedWith (log : EventLog) (value : PcrValue) : HostManifest :=
  { HostManifest.blank with
    pcrs := some
      { sha1Values := if log.pcr.bank = .sha1 then [value] else []
        otherValues := if log.pcr.bank = .sha1 then [] else [value]
        logs := .insert .empty log.pcr.bank [log] } }

theorem exists_reportedWith (log : EventLog) (value : String) :
    ∃ pcrs, (log.reportedWith ⟨log.pcr, value⟩).reportedPcrs = some pcrs ∧
      pcrs.value? log.pcr = some ⟨log.pcr, value⟩ ∧ pcrs.log? log.pcr = some log := by
  obtain ⟨⟨index, bank⟩, events⟩ := log
  cases bank <;> exact ⟨_, rfl, by simp [PcrManifest.value?], by
    simp [PcrManifest.log?, BankMap.insert, BankMap.get?]⟩

variable [CertificateLibrary]

/-- On hosts that report the same for the register apart from the log, the two logs lead to the
same verdict about the replay. -/
def JudgedAlike (a b : EventLog) : Prop :=
  ∀ (m m' : HostManifest) (pcrs pcrs' : PcrManifest) (markers : List FlavorPart),
    m.reportedPcrs = some pcrs → m'.reportedPcrs = some pcrs' →
    pcrs.value? a.pcr = pcrs'.value? b.pcr → pcrs.log? a.pcr = some a →
    pcrs'.log? b.pcr = some b →
      ∃ r r', ((Check.replay a.pcr).rule markers).judge m = .ok r ∧
        ((Check.replay b.pcr).rule markers).judge m' = .ok r' ∧ r.trusted = r'.trusted

/-- Which values make the replay of a log pass is told by what the log replays to. -/
theorem passes_replay_iff_of_log {m : HostManifest} {pcrs : PcrManifest}
    (reported : m.reportedPcrs = some pcrs) (logged : pcrs.log? a.pcr = some a) :
    (Check.replay a.pcr).Passes m ↔ ∃ actual value, pcrs.value? a.pcr = some actual ∧
      a.replay = .ok value ∧ Text.sameIgnoringCase actual.value value = true := by
  simp [Check.passes_replay_iff, HostManifest.LogReplays, reported, logged]

theorem judgedAlike_of_replay_eq (same : a.replay.toOption = b.replay.toOption) :
    a.JudgedAlike b := by
  intro m m' pcrs pcrs' markers reported reported' value logged logged'
  obtain ⟨r, judged⟩ : ∃ r, ((Check.replay a.pcr).rule markers).judge m = .ok r := ⟨_, rfl⟩
  obtain ⟨r', judged'⟩ : ∃ r, ((Check.replay b.pcr).rule markers).judge m' = .ok r := ⟨_, rfl⟩
  refine ⟨r, r', judged, judged', Bool.eq_iff_iff.mpr ?_⟩
  rw [Check.trusted_iff_passes judged, Check.trusted_iff_passes judged',
    passes_replay_iff_of_log reported logged, passes_replay_iff_of_log reported' logged', value]
  simp only [← toOption_eq_some_iff, same]

/-- A log that leads to the verdicts of one that can be replayed can be replayed. -/
theorem JudgedAlike.exists_replay (h : a.JudgedAlike b) (pcr : a.pcr = b.pcr) {v : String}
    (one : a.replay = .ok v) : ∃ w, b.replay = .ok w := by
  obtain ⟨pcrs, reported, value, logged⟩ := a.exists_reportedWith v
  obtain ⟨pcrs', reported', value', logged'⟩ := b.exists_reportedWith v
  obtain ⟨r, r', judged, judged', verdict⟩ := h _ _ _ _ [] reported reported'
    (by rw [value, value', pcr]) logged logged'
  have trusted : r.trusted = true := by
    rw [Check.trusted_iff_passes judged, passes_replay_iff_of_log reported logged]
    exact ⟨_, v, value, one, Text.sameIgnoringCase_refl v⟩
  rw [verdict, Check.trusted_iff_passes judged', passes_replay_iff_of_log reported' logged']
    at trusted
  obtain ⟨-, w, -, other, -⟩ := trusted
  exact ⟨w, other⟩

theorem JudgedAlike.symm (h : a.JudgedAlike b) : b.JudgedAlike a := by
  intro m m' pcrs pcrs' markers reported reported' value logged logged'
  obtain ⟨r, r', judged, judged', verdict⟩ :=
    h m' m pcrs' pcrs markers reported' reported value.symm logged' logged
  exact ⟨r', r, judged', judged, verdict.symm⟩

/-- **Comparison and replay mean the same digests.** Measurements that can be read have one key
exactly if they write the same bytes. Logs of one register whose measurements have the same keys
lead to one value and to one verdict, whatever value the host reports, if both can be replayed;
and to one verdict for every reported value exactly if both can be replayed or neither can. -/
theorem keys_mean_digests :
    (∀ e f : Event, Hex.WellFormed e.measurement → Hex.WellFormed f.measurement →
      (e.key.1 = f.key.1 ↔ Hex.decode e.measurement = Hex.decode f.measurement)) ∧
    ∀ a b : EventLog, a.SameMeasurements b →
      (∀ v w, a.replay = .ok v → b.replay = .ok w → v = w ∧ a.JudgedAlike b) ∧
      (a.JudgedAlike b ↔ ((∃ v, a.replay = .ok v) ↔ ∃ w, b.replay = .ok w)) := by
  refine ⟨fun e f => Hex.lower_trim_eq_iff, fun a b same => ?_⟩
  have together : ∀ v w, a.replay = .ok v → b.replay = .ok w → v = w ∧ a.JudgedAlike b := by
    intro v w one other
    obtain rfl := same.replay_eq one other
    exact ⟨rfl, judgedAlike_of_replay_eq (by rw [one, other])⟩
  refine ⟨together, fun alike => ⟨?_, ?_⟩, fun both => ?_⟩
  · rintro ⟨v, one⟩
    exact alike.exists_replay same.pcr one
  · rintro ⟨w, other⟩
    exact alike.symm.exists_replay same.pcr.symm other
  · cases one : a.replay with
    | ok v =>
      obtain ⟨w, other⟩ := both.mp ⟨v, one⟩
      exact (together v w one other).2
    | error f =>
      cases other : b.replay with
      | ok w => simp [one, other] at both
      | error g => exact judgedAlike_of_replay_eq (by rw [one, other]; rfl)

end EventLog

namespace Sample

/-- Letter case counts for neither; a blank is dropped by a comparison and refused by a replay. -/
theorem recased_log_replayed :
    (bootLog [loggedAs "0x1" "aB", loggedAs "0x2" "cd"]).SameMeasurements
      (bootLog [loggedAs "0x3" "Ab", loggedAs "0x2" "CD"]) ∧
    (bootLog [loggedAs "0x1" "aB", loggedAs "0x2" "cd"]).JudgedAlike
      (bootLog [loggedAs "0x3" "Ab", loggedAs "0x2" "CD"]) ∧
    ¬(bootLog [loggedAs "0x1" "ab"]).JudgedAlike (bootLog [loggedAs "0x1" " ab"]) := by
  obtain ⟨-, logs⟩ := EventLog.keys_mean_digests
  have recased : (bootLog [loggedAs "0x1" "aB", loggedAs "0x2" "cd"]).SameMeasurements
      (bootLog [loggedAs "0x3" "Ab", loggedAs "0x2" "CD"]) := ⟨rfl, by decide +kernel⟩
  have blank : (bootLog [loggedAs "0x1" "ab"]).SameMeasurements
      (bootLog [loggedAs "0x1" " ab"]) := ⟨rfl, by decide +kernel⟩
  obtain ⟨v, one, -⟩ := exists_ok_of_map_eq_some (p := fun _ => true)
    (x := (bootLog [loggedAs "0x1" "aB", loggedAs "0x2" "cd"]).replay) (by decide +kernel)
  obtain ⟨w, other, -⟩ := exists_ok_of_map_eq_some (p := fun _ => true)
    (x := (bootLog [loggedAs "0x3" "Ab", loggedAs "0x2" "CD"]).replay) (by decide +kernel)
  obtain ⟨u, plain, -⟩ := exists_ok_of_map_eq_some (p := fun _ => true)
    (x := (bootLog [loggedAs "0x1" "ab"]).replay) (by decide +kernel)
  have refused : (bootLog [loggedAs "0x1" " ab"]).replay = .error ⟨0, .oddLength⟩ := rfl
  refine ⟨recased, ((logs _ _ recased).1 v w one other).2, fun alike => ?_⟩
  simpa [refused] using ((logs _ _ blank).2.mp alike).mp ⟨u, plain⟩

end Sample

end HostTrust
