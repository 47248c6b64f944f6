/-
HostTrust.Proofs.Descriptions — which differences of description the comparison of
two event logs notes.

A key may occur in a log more than once, and its events may be described
differently. The comparison looks at the first of them alone (`EventLog.first?`): an
expected event is noted exactly if the first actual event with its key has another
type name or other tags (`EventLogDiff.Notes`). So a log that is compared with itself
lacks nothing and has nothing unexpected, but something is noted in it if events with
one key are described differently; nothing is exactly if the log is uniform
(`EventLog.diff_self_notes`).
-/
import HostTrust.Proofs.LogComparison

namespace HostTrust

/-! ## Descriptions -/

/-- The events have one type name and the same tags. -/
def Event.SameDescription (e f : Event) : Prop := e.typeName = f.typeName ∧ e.tags = f.tags

theorem Event.describedAlike_iff {e f : Event} :
    e.describedAlike f = true ↔ e.SameDescription f := by
  simp [Event.describedAlike, Event.SameDescription]

instance (e f : Event) : Decidable (e.SameDescription f) :=
  decidable_of_iff _ Event.describedAlike_iff

namespace EventLog

variable {a b log : EventLog} {e f : Event}

/-- The first event of the log with a key. -/
def first? (log : EventLog) (key : String × String) : Option Event :=
  log.events.find? (·.key == key)

theorem first?_eq_some_iff {key : String × String} : log.first? key = some f ↔
    f.key = key ∧ ∃ before after, log.events = before ++ f :: after ∧
      ∀ e ∈ before, e.key ≠ key := by
  simp [first?, List.find?_eq_some_iff_append]

theorem mem_of_first? {key : String × String} (h : log.first? key = some f) :
    f ∈ log.events ∧ f.key = key := by
  obtain ⟨same, before, after, split, -⟩ := first?_eq_some_iff.mp h
  exact ⟨by simp [split], same⟩

theorem exists_first?_of_mem (h : e ∈ log.events) : ∃ f, log.first? e.key = some f := by
  rw [← Option.isSome_iff_exists, first?, List.find?_isSome]
  exact ⟨e, h, beq_self_eq_true e.key⟩

/-- The first event of the log with the key of the event is described differently. -/
def Misdescribes (log : EventLog) (e : Event) : Prop :=
  ∃ f, log.first? e.key = some f ∧ ¬ e.SameDescription f

instance (log : EventLog) (e : Event) : Decidable (log.Misdescribes e) :=
  decidable_of_iff ((log.first? e.key).any (fun f => !e.describedAlike f) = true) (by
    simp [Misdescribes, Option.any_eq_true, ← Event.describedAlike_iff])

/-- Events of the log with one key are described alike. -/
def Uniform (log : EventLog) : Prop :=
  ∀ e ∈ log.events, ∀ f ∈ log.events, e.key = f.key → e.SameDescription f

/-- A uniform log misdescribes what it describes nowhere. -/
theorem Uniform.not_sameDescription (uniform : log.Uniform) (noted : log.Misdescribes e)
    (hf : f ∈ log.events) (same : f.key = e.key) : ¬ e.SameDescription f := by
  obtain ⟨g, first, differs⟩ := noted
  obtain ⟨hg, key⟩ := mem_of_first? first
  have alike : f.SameDescription g := uniform f hf g hg (same.trans key.symm)
  rintro ⟨name, tags⟩
  exact differs ⟨name.trans alike.1, tags.trans alike.2⟩

/-- A log misdescribes none of its events exactly if it is uniform. -/
theorem forall_not_misdescribes_iff : (∀ e ∈ log.events, ¬ log.Misdescribes e) ↔ log.Uniform := by
  constructor
  · intro none e he f hf same
    -- Both are described as the first event with their key.
    obtain ⟨g, first⟩ := exists_first?_of_mem he
    have as_first : ∀ d ∈ log.events, d.key = e.key → d.SameDescription g := by
      intro d hd key
      by_contra differs
      exact none d hd ⟨g, by rw [key, first], differs⟩
    obtain ⟨name, tags⟩ := as_first e he rfl
    obtain ⟨name', tags'⟩ := as_first f hf same.symm
    exact ⟨name.trans name'.symm, tags.trans tags'.symm⟩
  · rintro uniform e he noted
    exact uniform.not_sameDescription noted he rfl ⟨rfl, rfl⟩

end EventLog

/-! ## What is noted -/

/-- The comparison looks up the first actual event of each key. -/
theorem Event.mismatches_eq (expected : List Event) (actual : EventLog) :
    Event.mismatches expected actual.events = expected.filterMap fun e =>
      (actual.first? e.key).bind fun f => if e.describedAlike f then none else some ⟨e, f⟩ := by
  refine List.filterMap_congr fun e _ => ?_
  rw [Sorted.lookup_map_key, EventLog.first?]
  cases actual.events.find? (·.key == e.key) <;> rfl

/-- The events noted are the expected ones that the actual log misdescribes, in order and as
often as they occur, each beside the first actual event with its key. -/
structure EventLogDiff.Notes (d : EventLogDiff) (expected actual : EventLog) : Prop where
  noted : d.mismatches.map EventMismatch.expected =
    expected.events.filter fun e => actual.Misdescribes e
  beside : ∀ x ∈ d.mismatches, actual.first? x.expected.key = some x.actual

namespace EventLog

variable {a b : EventLog} {d : EventLogDiff}

theorem compare_notes (a b : EventLog) : (a.compare b).Notes a b := by
  have each : (a.compare b).mismatches = a.events.filterMap fun e =>
      (b.first? e.key).bind fun f => if e.describedAlike f then none else some ⟨e, f⟩ :=
    Event.mismatches_eq a.events b
  constructor
  · rw [each, List.map_filterMap, ← List.filterMap_eq_filter]
    refine List.filterMap_congr fun e _ => ?_
    cases first : b.first? e.key with
    | none =>
      have unnoted : ¬ b.Misdescribes e := by simp [Misdescribes, first]
      simp [Option.guard, unnoted]
    | some f =>
      have noted : b.Misdescribes e ↔ ¬ e.SameDescription f := by simp [Misdescribes, first]
      by_cases same : e.SameDescription f
      · simp [Option.guard, noted, Event.describedAlike_iff, same]
      · simp [Option.guard, noted, Event.describedAlike_iff, same]
  · intro x hx
    rw [each, List.mem_filterMap] at hx
    obtain ⟨e, -, he⟩ := hx
    obtain ⟨f, first, given⟩ := Option.bind_eq_some_iff.mp he
    split at given
    · cases given
    · obtain rfl := Option.some.inj given
      exact first

end EventLog

namespace EventLogDiff.Notes

variable {d : EventLogDiff} {a b : EventLog} {e : Event}

theorem exists_iff (h : d.Notes a b) :
    (∃ x ∈ d.mismatches, x.expected = e) ↔ e ∈ a.events ∧ b.Misdescribes e := by
  rw [← List.mem_map, h.noted, List.mem_filter, decide_eq_true_iff]

theorem mismatches_eq_nil_iff (h : d.Notes a b) :
    d.mismatches = [] ↔ ∀ e ∈ a.events, ¬ b.Misdescribes e := by
  rw [← List.map_eq_nil_iff, h.noted, List.filter_eq_nil_iff]
  simp only [decide_eq_true_iff]

end EventLogDiff.Notes

/-- **What the comparison of logs notes.** A log compared with itself lacks nothing and has nothing
unexpected, and nothing is noted in it exactly if its events with one key are described alike. Of
an expected log, exactly those events are noted for which the first actual event with their key is
described differently. Where actual events with one key are described alike, none of them is
described as an event that is noted. -/
theorem EventLog.diff_self_notes :
    (∀ a : EventLog, ∃ d, a.diff a = .ok d ∧ d.missing = [] ∧ d.unexpected = [] ∧ d.Notes a a ∧
      (d.mismatches = [] ↔ a.Uniform)) ∧
    ∀ a b : EventLog, a.pcr = b.pcr → ∃ d, a.diff b = .ok d ∧ d.Notes a b ∧
      (∀ e ∈ a.events, (∃ x ∈ d.mismatches, x.expected = e) ↔ b.Misdescribes e) ∧
      (b.Uniform → ∀ x ∈ d.mismatches, ∀ f ∈ b.events, f.key = x.expected.key →
        ¬ x.expected.SameDescription f) := by
  constructor
  · intro a
    have notes := compare_notes a a
    have itself : Event.without a.events a.events = [] :=
      Event.without_eq_nil_iff.mpr fun e he => ⟨e, he, rfl⟩
    refine ⟨_, diff_of_same rfl, itself, itself, notes, ?_⟩
    rw [notes.mismatches_eq_nil_iff, forall_not_misdescribes_iff]
  · intro a b same
    have notes := compare_notes a b
    refine ⟨_, diff_of_same same, notes, fun e he => ?_, fun uniform x hx f hf key => ?_⟩
    · rw [notes.exists_iff]
      exact and_iff_right he
    · have noted := (notes.exists_iff.mp ⟨x, hx, rfl⟩).2
      exact uniform.not_sameDescription noted hf key

namespace Sample

/-- The event `loggedAs "0x1" "aa"` under another name. -/
def renamed : Event := { loggedAs "0x1" "aa" with typeName := "EV_RENAMED" }

/-- A log that describes one measurement in two ways. -/
def twiceDescribed : EventLog := bootLog [loggedAs "0x1" "aa", renamed]

/-- An event is noted although the actual log has it exactly as expected. -/
theorem renamed_noted : ∃ d, (bootLog [renamed]).diff twiceDescribed = .ok d ∧
    (∃ x ∈ d.mismatches, x.expected = renamed) ∧ renamed ∈ twiceDescribed.events := by
  obtain ⟨-, compared⟩ := EventLog.diff_self_notes
  obtain ⟨d, found, -, noted, -⟩ := compared (bootLog [renamed]) twiceDescribed rfl
  refine ⟨d, found, (noted renamed (.head _)).mpr ?_, by decide⟩
  exact ⟨loggedAs "0x1" "aa", by decide +kernel, by decide +kernel⟩

/-- Compared with itself, the log has an event that is noted, beside which stands another event
although the event itself is there. -/
theorem noted_beside_itself : twiceDescribed.diff twiceDescribed =
      .ok ⟨[], [], [⟨renamed, loggedAs "0x1" "aa"⟩]⟩ ∧
    renamed ∈ twiceDescribed.events ∧ renamed.SameDescription renamed := by
  refine ⟨by decide +kernel, by decide, rfl, rfl⟩

end Sample

end HostTrust
