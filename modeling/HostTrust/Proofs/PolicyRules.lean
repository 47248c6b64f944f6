/-
HostTrust.Proofs.PolicyRules — the rules that policies ask for, in order.

The rules are built with a note of the registers whose replay is asked for
already. `PcrPolicy.asked` says without it what they are: each policy asks for its
value and its events, and for the replay of its register if no policy in front of
it asks for events of the register. `PcrPolicy.checksAfter_eq_ok_iff` ties the
two together, by induction with the policies in front as what the note stands for.

So a register whose log is compared is replayed once, directly after the first
comparison, and no other register is (`PcrPolicy.ReplayedOnce`), whatever the
order of the policies and however many are about it. A policy that gives events
both ways is an error, and no rules are built at all.
-/
import HostTrust.Proofs.ExcludedEvents
import HostTrust.Proofs.PolicyConflicts

namespace HostTrust

open Outcome

/-- A check with the name of its rule. -/
structure NamedCheck where
  name : String
  check : Check
  deriving DecidableEq

/-- The rule of that name, about a part of the host, that judges as the check does. -/
def NamedCheck.rule [CertificateLibrary] (n : NamedCheck) (part : FlavorPart) : Rule :=
  { n.check.rule [part] with name := n.name }

/-- The check compares the log of the register with events. -/
inductive Check.ComparesLogOf : Check → Pcr → Prop
  | equal (log : EventLog) (exclude : NameSet) : ComparesLogOf (.equalEvents log exclude) log.pcr
  | included (log : EventLog) : ComparesLogOf (.includedEvents log) log.pcr

namespace PcrPolicy

variable {before policies rest : List PcrPolicy} {p q : PcrPolicy} {pcr : Pcr} {n : NamedCheck}

/-! ## What policies ask for -/

/-- The policy asks for events of the register. -/
def AsksAbout (p : PcrPolicy) (pcr : Pcr) : Prop := p.asksForEvents = true ∧ p.pcr = pcr

instance (p : PcrPolicy) (pcr : Pcr) : Decidable (p.AsksAbout pcr) :=
  inferInstanceAs (Decidable (_ ∧ _))

/-- The value of the register, if the policy says so. -/
def askedValue (p : PcrPolicy) : List NamedCheck :=
  if p.matchesValue then [⟨"PcrMatchesConstant", .pcrValue ⟨p.pcr, p.measurement⟩⟩] else []

/-- The events of the register, in whichever way they are given. -/
def askedEvents (p : PcrPolicy) : List NamedCheck :=
  match p.logEquals, p.logIncludes with
  | some e, _ =>
    [⟨if e.excludeTags = .empty then "PcrEventLogEquals" else "PcrEventLogEqualsExcluding",
      .equalEvents ⟨p.pcr, e.events⟩ e.excludeTags⟩]
  | none, some events => [⟨"PcrEventLogIncludes", .includedEvents ⟨p.pcr, events⟩⟩]
  | none, none => []

/-- The replay of the register, if the policy is the first that asks for its events. -/
def askedReplay (before : List PcrPolicy) (p : PcrPolicy) : List NamedCheck :=
  if p.asksForEvents = true ∧ ∀ q ∈ before, ¬q.AsksAbout p.pcr then
    [⟨"PcrEventLogIntegrity", .replay p.pcr⟩]
  else []

/-- What a policy asks for, with the policies in front of it. -/
def askedBehind (before : List PcrPolicy) (p : PcrPolicy) : List NamedCheck :=
  p.askedValue ++ p.askedEvents ++ p.askedReplay before

/-- What policies ask for, in their order. -/
def asked (policies : List PcrPolicy) : List NamedCheck :=
  policies.zipIdx.flatMap fun (p, i) => p.askedBehind (policies.take i)

/-- What the rest of the policies asks for, after those in front of it. -/
def askedFrom (before : List PcrPolicy) : List PcrPolicy → List NamedCheck
  | [] => []
  | p :: rest => p.askedBehind before ++ askedFrom (before ++ [p]) rest

theorem askedFrom_eq (before rest : List PcrPolicy) : askedFrom before rest =
    (rest.zipIdx before.length).flatMap fun (p, i) => p.askedBehind ((before ++ rest).take i) := by
  induction rest generalizing before with
  | nil => rfl
  | cons p rest ih => simp [askedFrom, ih]

theorem askedFrom_nil (policies : List PcrPolicy) : askedFrom [] policies = asked policies :=
  askedFrom_eq [] policies

theorem askedFrom_append (before policies rest : List PcrPolicy) :
    askedFrom before (policies ++ rest) =
      askedFrom before policies ++ askedFrom (before ++ policies) rest := by
  induction policies generalizing before with
  | nil => simp [askedFrom]
  | cons p policies ih => simp [askedFrom, ih]

/-- Whatever is asked for is asked for by a policy, which stands behind those in front. -/
theorem exists_of_mem_askedFrom (h : n ∈ askedFrom before rest) :
    ∃ q ∈ rest, ∃ more, n ∈ q.askedBehind (before ++ more) := by
  induction rest generalizing before with
  | nil => cases h
  | cons p rest ih =>
    rcases List.mem_append.mp h with here | later
    · exact ⟨p, .head _, [], by simpa using here⟩
    · obtain ⟨q, hq, more, hn⟩ := ih later
      exact ⟨q, .tail _ hq, p :: more, by simpa using hn⟩

/-! ## The checks of policies -/

theorem map_askedValue : p.askedValue.map NamedCheck.check = p.valueChecks := by
  unfold askedValue valueChecks
  split <;> rfl

theorem map_askedEvents (consistent : ¬p.Conflicting) :
    p.askedEvents.map NamedCheck.check = p.eventChecks := by
  unfold Conflicting at consistent
  unfold askedEvents eventChecks
  cases he : p.logEquals <;> cases hi : p.logIncludes <;> simp_all

theorem map_askedReplay {checked : List Pcr}
    (seen : ∀ pcr, pcr ∈ checked ↔ ∃ q ∈ before, q.AsksAbout pcr) :
    (p.askedReplay before).map NamedCheck.check = p.replayChecks checked := by
  have unseen : (∀ q ∈ before, ¬q.AsksAbout p.pcr) ↔ p.pcr ∉ checked := by simp [seen]
  simp only [askedReplay, replayChecks, unseen]
  by_cases asks : p.asksForEvents = true <;> by_cases new : p.pcr ∈ checked <;>
    simp [asks, new]

/-- The checks are those that are asked for; `checked` notes the registers that the policies in
front ask about. -/
theorem checksAfter_eq_ok_iff {checked : List Pcr} {cs : List Check}
    (seen : ∀ pcr, pcr ∈ checked ↔ ∃ q ∈ before, q.AsksAbout pcr) :
    checksAfter checked rest = .ok cs ↔
      (∀ p ∈ rest, ¬p.Conflicting) ∧ (askedFrom before rest).map NamedCheck.check = cs := by
  induction rest generalizing before checked cs with
  | nil => simp [checksAfter, askedFrom]
  | cons p rest ih =>
    have seen' : ∀ pcr, pcr ∈ (if p.asksForEvents then p.pcr :: checked else checked) ↔
        ∃ q ∈ before ++ [p], q.AsksAbout pcr := by
      intro pcr
      simp only [List.mem_append, List.mem_singleton, or_and_right, exists_or, exists_eq_left,
        (seen pcr).symm]
      by_cases asks : p.asksForEvents = true
      · simp [AsksAbout, asks, or_comm, @eq_comm _ pcr]
      · simp [AsksAbout, asks]
    simp only [checksAfter, bind_eq_ok_iff, pure_eq_ok_iff, validate_eq_ok_iff, ih seen',
      List.forall_mem_cons, askedFrom, askedBehind, List.map_append, map_askedValue,
      map_askedReplay seen]
    constructor
    · rintro ⟨-, here, _, ⟨later, rfl⟩, rfl⟩
      exact ⟨⟨here, later⟩, by rw [map_askedEvents here]⟩
    · rintro ⟨⟨here, later⟩, rfl⟩
      exact ⟨(), here, _, ⟨later, rfl⟩, by rw [map_askedEvents here]⟩

theorem checks_eq_ok_iff {cs : List Check} : checks policies = .ok cs ↔
    (∀ p ∈ policies, ¬p.Conflicting) ∧ (asked policies).map NamedCheck.check = cs := by
  have none : ∀ pcr, pcr ∈ ([] : List Pcr) ↔ ∃ q ∈ ([] : List PcrPolicy), q.AsksAbout pcr := by simp
  rw [checks, checksAfter_eq_ok_iff none, askedFrom_nil]

/-- All that a policy can ask for. -/
theorem mem_askedBehind (h : n ∈ p.askedBehind before) :
    n = ⟨"PcrMatchesConstant", .pcrValue p.expectedValue⟩ ∨
    (∃ e, p.logEquals = some e ∧
      n = ⟨if e.excludeTags = .empty then "PcrEventLogEquals" else "PcrEventLogEqualsExcluding",
        .equalEvents ⟨p.pcr, e.events⟩ e.excludeTags⟩) ∨
    (∃ events, p.logIncludes = some events ∧
      n = ⟨"PcrEventLogIncludes", .includedEvents ⟨p.pcr, events⟩⟩) ∨
    (p.asksForEvents = true ∧ (∀ q ∈ before, ¬q.AsksAbout p.pcr) ∧
      n = ⟨"PcrEventLogIntegrity", .replay p.pcr⟩) := by
  simp only [askedBehind, List.mem_append, askedValue, askedEvents, askedReplay] at h
  rcases h with (value | events) | replay
  · split at value
    · exact .inl (List.mem_singleton.mp value)
    · cases value
  · split at events
    · next e given => exact .inr (.inl ⟨e, given, List.mem_singleton.mp events⟩)
    · next es _ given => exact .inr (.inr (.inl ⟨es, given, List.mem_singleton.mp events⟩))
    · cases events
  · split at replay
    · next first => exact .inr (.inr (.inr ⟨first.1, first.2, List.mem_singleton.mp replay⟩))
    · cases replay

/-- What is asked for bears the name of its check. -/
theorem name_of_mem_askedBehind (h : n ∈ p.askedBehind before) : n.name = n.check.name := by
  rcases mem_askedBehind h with rfl | ⟨e, -, rfl⟩ | ⟨events, -, rfl⟩ | ⟨-, -, rfl⟩
  case inr.inl =>
    by_cases none : e.excludeTags = .empty
    · simp only [none, if_true]
      rfl
    · have some : e.excludeTags.isEmpty = false :=
        Bool.eq_false_iff.mpr fun h => none (NameSet.eq_empty_of_isEmpty h)
      simp [Check.name, none, some]
  all_goals rfl

theorem rule_of_mem_asked [CertificateLibrary] (part : FlavorPart) (h : n ∈ asked policies) :
    n.rule part = n.check.rule [part] := by
  rw [← askedFrom_nil] at h
  obtain ⟨q, -, more, hn⟩ := exists_of_mem_askedFrom h
  rw [NamedCheck.rule, name_of_mem_askedBehind hn]
  rfl

/-- The rules are those that are asked for, if no policy is in conflict with itself. -/
theorem rules_eq_ok_iff [CertificateLibrary] {part : FlavorPart} {rs : List Rule} :
    rules policies part = .ok rs ↔
    (∀ p ∈ policies, ¬p.Conflicting) ∧ rs = (asked policies).map (·.rule part) := by
  have same : ((asked policies).map NamedCheck.check).map (fun c => c.rule [part]) =
      (asked policies).map (·.rule part) := by
    rw [List.map_map]
    exact List.map_congr_left fun n hn => (rule_of_mem_asked part hn).symm
  simp only [rules, bind_eq_ok_iff, pure_eq_ok_iff, checks_eq_ok_iff]
  constructor
  · rintro ⟨_, ⟨consistent, rfl⟩, rfl⟩
    exact ⟨consistent, same⟩
  · rintro ⟨consistent, rfl⟩
    exact ⟨_, ⟨consistent, rfl⟩, same⟩

/-- There are no rules because of the first policy that is in conflict with itself. -/
theorem rules_eq_error_iff [CertificateLibrary] {part : FlavorPart} {e : VerificationError} :
    rules policies part = .error e ↔
      ∃ q, policies.find? (·.Conflicting) = some q ∧ e = .conflictingPolicy q.pcr := by
  cases first : policies.find? (·.Conflicting) with
  | some q =>
    have failed : rules policies part = .error (.conflictingPolicy q.pcr) := by
      rw [rules, checks_of_conflicting first]
      rfl
    simp [failed, eq_comm]
  | none =>
    have consistent : ∀ p ∈ policies, ¬p.Conflicting := by simpa using first
    simp [rules_eq_ok_iff.mpr ⟨consistent, rfl⟩]

/-! ## Replays -/

/-- The replay of the register stands directly behind the first comparison of its log, and
nowhere else. -/
def ReplayedOnce (cs : List Check) (pcr : Pcr) : Prop :=
  ∃ before comparison after, cs = before ++ comparison :: .replay pcr :: after ∧
    comparison.ComparesLogOf pcr ∧ (∀ c ∈ before, ¬c.ComparesLogOf pcr) ∧
    .replay pcr ∉ before ∧ .replay pcr ∉ after

theorem asksForEvents_iff :
    p.asksForEvents = true ↔ p.logEquals.isSome = true ∨ p.logIncludes.isSome = true := by
  simp [asksForEvents]

/-- A policy that asks for events compares the log of its register once. -/
theorem exists_askedEvents (h : p.AsksAbout pcr) :
    ∃ n, p.askedEvents = [n] ∧ n.check.ComparesLogOf pcr := by
  obtain ⟨asks, rfl⟩ := h
  unfold askedEvents
  split
  · exact ⟨_, rfl, .equal _ _⟩
  · exact ⟨_, rfl, .included _⟩
  · next noEquals noIncludes => simp [asksForEvents_iff, noEquals, noIncludes] at asks

theorem asksAbout_of_comparesLogOf (h : n ∈ p.askedBehind before)
    (compares : n.check.ComparesLogOf pcr) : p.AsksAbout pcr := by
  rcases mem_askedBehind h with rfl | ⟨e, given, rfl⟩ | ⟨events, given, rfl⟩ | ⟨-, -, rfl⟩
  · cases compares
  · cases compares
    exact ⟨asksForEvents_iff.mpr (.inl (by simp [given])), rfl⟩
  · cases compares
    exact ⟨asksForEvents_iff.mpr (.inr (by simp [given])), rfl⟩
  · cases compares

/-- The replay is asked for by the first policy that asks for events of the register. -/
theorem first_of_replay (h : n ∈ p.askedBehind before) (replays : n.check = .replay pcr) :
    p.AsksAbout pcr ∧ ∀ q ∈ before, ¬q.AsksAbout pcr := by
  rcases mem_askedBehind h with rfl | ⟨_, -, rfl⟩ | ⟨_, -, rfl⟩ | ⟨asks, first, rfl⟩
  · cases replays
  · cases replays
  · cases replays
  · obtain rfl : p.pcr = pcr := Check.replay.inj replays
    exact ⟨⟨asks, rfl⟩, first⟩

theorem exists_asksAbout_of_comparesLogOf {c : Check}
    (h : c ∈ (askedFrom before rest).map NamedCheck.check) (compares : c.ComparesLogOf pcr) :
    ∃ p ∈ rest, p.AsksAbout pcr := by
  obtain ⟨n, hn, rfl⟩ := List.mem_map.mp h
  obtain ⟨q, hq, more, asks⟩ := exists_of_mem_askedFrom hn
  exact ⟨q, hq, asksAbout_of_comparesLogOf asks compares⟩

/-- Whoever asks for the replay has nobody in front who asks about the register. -/
theorem exists_first_of_replay (h : .replay pcr ∈ (askedFrom before rest).map NamedCheck.check) :
    ∃ p ∈ rest, p.AsksAbout pcr ∧ ∀ q ∈ before, ¬q.AsksAbout pcr := by
  obtain ⟨n, hn, replays⟩ := List.mem_map.mp h
  obtain ⟨q, hq, more, asks⟩ := exists_of_mem_askedFrom hn
  obtain ⟨own, first⟩ := first_of_replay asks replays
  exact ⟨q, hq, own, fun q' hq' => first q' (List.mem_append_left _ hq')⟩

theorem replay_not_mem_asked (h : ∀ p ∈ policies, ¬p.AsksAbout pcr) :
    .replay pcr ∉ (asked policies).map NamedCheck.check := by
  intro mem
  rw [← askedFrom_nil] at mem
  obtain ⟨q, hq, asks, -⟩ := exists_first_of_replay mem
  exact h q hq asks

theorem replayedOnce_asked (h : ∃ p ∈ policies, p.AsksAbout pcr) :
    ReplayedOnce ((asked policies).map NamedCheck.check) pcr := by
  obtain ⟨p, hp⟩ : ∃ p, policies.find? (·.AsksAbout pcr) = some p :=
    Option.isSome_iff_exists.mp (List.find?_isSome.mpr (by simpa using h))
  obtain ⟨asks, front, behind, rfl, others⟩ := List.find?_eq_some_iff_append.mp hp
  replace asks : p.AsksAbout pcr := by simpa using asks
  replace others : ∀ q ∈ front, ¬q.AsksAbout pcr := by simpa using others
  obtain ⟨comparison, events, compares⟩ := exists_askedEvents asks
  have replay : p.askedReplay front = [⟨"PcrEventLogIntegrity", .replay pcr⟩] := by
    rw [askedReplay, asks.2, if_pos ⟨asks.1, others⟩]
  have parts : (asked (front ++ p :: behind)).map NamedCheck.check =
      ((askedFrom [] front).map NamedCheck.check ++ p.valueChecks) ++
        comparison.check :: .replay pcr ::
          (askedFrom (front ++ [p]) behind).map NamedCheck.check := by
    rw [← askedFrom_nil, askedFrom_append, askedFrom, askedBehind, events, List.nil_append, replay,
      ← map_askedValue]
    simp
  have values : ∀ c ∈ p.valueChecks, ∃ v, c = .pcrValue v := by
    simp [valueChecks]
  refine ⟨_, _, _, parts, compares, fun c hc compared => ?_, fun mem => ?_, fun mem => ?_⟩
  · rcases List.mem_append.mp hc with earlier | value
    · obtain ⟨q, hq, about⟩ := exists_asksAbout_of_comparesLogOf earlier compared
      exact others q hq about
    · obtain ⟨v, rfl⟩ := values c value
      cases compared
  · rcases List.mem_append.mp mem with earlier | value
    · obtain ⟨q, hq, about, -⟩ := exists_first_of_replay earlier
      exact others q hq about
    · obtain ⟨v, same⟩ := values _ value
      cases same
  · -- Whoever comes later has the first policy in front.
    obtain ⟨q, -, -, first⟩ := exists_first_of_replay mem
    exact first p (List.mem_append_right _ (List.mem_singleton_self p)) asks

/-- **The rules that policies ask for.** There are none exactly if a policy gives events both ways,
and the error names the register of the first such policy. Otherwise they are, in the order of the
policies, the value of each, its events, and the replay of its register where no policy in front
asks for events of the register. So a register for which events are given is replayed once,
directly after the first comparison of its log, and no other register is replayed. -/
theorem rules_exact [CertificateLibrary] (policies : List PcrPolicy) (part : FlavorPart) :
    ((∃ e, rules policies part = .error e) ↔ ∃ p ∈ policies, p.Conflicting) ∧
    (∀ e, rules policies part = .error e ↔
      ∃ q, policies.find? (·.Conflicting) = some q ∧ e = .conflictingPolicy q.pcr) ∧
    (∀ pcr, (VerificationError.conflictingPolicy pcr).message = "Invalid flavor: " ++
      ("PCR policy for " ++ pcr.display ++
        " sets both eventlog_equals and eventlog_includes")) ∧
    (∀ rs, rules policies part = .ok rs ↔
      (∀ p ∈ policies, ¬p.Conflicting) ∧ rs = (asked policies).map (·.rule part)) ∧
    ∀ pcr, ((∃ p ∈ policies, p.AsksAbout pcr) ↔
        ReplayedOnce ((asked policies).map NamedCheck.check) pcr) ∧
      ((∀ p ∈ policies, ¬p.AsksAbout pcr) ↔
        .replay pcr ∉ (asked policies).map NamedCheck.check) := by
  have found : (∃ q, policies.find? (·.Conflicting) = some q) ↔ ∃ p ∈ policies, p.Conflicting := by
    simp [← Option.isSome_iff_exists]
  refine ⟨?_, fun e => rules_eq_error_iff, fun pcr => rfl, fun rs => rules_eq_ok_iff,
    fun pcr => ⟨⟨replayedOnce_asked, ?_⟩, ⟨replay_not_mem_asked, ?_⟩⟩⟩
  · rw [← found]
    simp [rules_eq_error_iff]
  · rintro ⟨front, comparison, behind, parts, -⟩
    by_contra none
    refine replay_not_mem_asked (by simpa using none) ?_
    rw [parts]
    simp
  · intro absent p hp asks
    obtain ⟨front, comparison, behind, parts, -⟩ := replayedOnce_asked ⟨p, hp, asks⟩
    rw [parts] at absent
    simp at absent

/-- Two policies are about one register, and a third about the same place of another bank. -/
example (place : Fin 24) (e : Event) :
    (asked [⟨⟨place, .sha1⟩, "", true, none, none⟩,
      ⟨⟨place, .sha1⟩, "", false, some ⟨[e], .empty⟩, none⟩,
      ⟨⟨place, .sha256⟩, "", false, none, some []⟩,
      ⟨⟨place, .sha1⟩, "", true, none, some [e]⟩]).map NamedCheck.name =
      ["PcrMatchesConstant", "PcrEventLogEquals", "PcrEventLogIntegrity", "PcrEventLogIncludes",
        "PcrEventLogIntegrity", "PcrMatchesConstant", "PcrEventLogIncludes"] := by
  simp [asked, askedBehind, askedValue, askedEvents, askedReplay, AsksAbout, asksForEvents]

end PcrPolicy

end HostTrust
