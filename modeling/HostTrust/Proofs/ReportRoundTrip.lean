/-
HostTrust.Proofs.ReportRoundTrip — faults, results and reports that were written
and read again.

A kind of fault is read back from its published name, the bank at the end of it
included (`FaultKind.ofName?_fullName`). A result is written with its verdict, which
is no field of what is read: it is passed over (`Fields.readMembers_of_unknown`), and
the verdict follows from the faults again. Two parts of a result come back only if
they could have been read before: the index that a fault names, and the value that
the rule expects (`RuleResult.Readable`). So a report made of such results is restored
(`TrustReport.restores`), and one that was read is made of such results
(`TrustReport.readable_of_read`).
-/
import HostTrust.Proofs.ManifestRoundTrip
import HostTrust.Proofs.Report
import HostTrust.Report.Format

namespace HostTrust

open Json Json.Format Outcome

/-! ## Members that are passed over -/

namespace Json

theorem Doc.ofMembers_append (ms ns : List (String × Json)) :
    Doc.ofMembers (ms ++ ns) = Doc.ofMembers ms ++ Doc.ofMembers ns := by
  induction ms with
  | nil => rfl
  | cons m ms ih =>
    obtain ⟨k, v⟩ := m
    rw [List.cons_append, ofMembers, ofMembers, ih]
    rfl

namespace Fields

variable {ts : List Type} {source : Source}

/-- Whether a member with this key gives one of the fields. -/
def knows (key : String) : {ts : List Type} → Fields ts → Bool
  | _, .nil => false
  | _, .cons field rest => field.answers key || knows key rest

theorem put?_of_unknown {fields : Fields ts} {key : String} (unknown : fields.knows key = false)
    (d : Doc) (slots : Slots ts) : put? source key d fields slots = .ok none := by
  induction fields with
  | nil => rfl
  | cons field rest ih =>
    obtain ⟨other, others⟩ := Bool.or_eq_false_iff.mp unknown
    rw [put?_of_other other, ih others]
    rfl

/-- A member that gives no field changes nothing, wherever it stands. -/
theorem readMembers_of_unknown {fields : Fields ts} {key : String}
    (unknown : fields.knows key = false) {d : Doc} (whole : d.isWhole = true)
    (before after : List (Option String × Doc)) (slots : Slots ts) :
    readMembers source fields slots (before ++ (some key, d) :: after) =
      readMembers source fields slots (before ++ after) := by
  induction before generalizing slots with
  | nil =>
    rw [List.nil_append, List.nil_append, readMembers, put?_of_unknown unknown]
    exact if_pos whole
  | cons m before ih =>
    obtain ⟨_ | k, d'⟩ := m
    · rfl
    · rw [List.cons_append, List.cons_append, readMembers, readMembers]
      simp only [ih]

/-- Fields that put members into the same slots read members alike. -/
theorem readMembers_congr {fields fields' : Fields ts}
    (same : ∀ key d slots, put? source key d fields slots = put? source key d fields' slots)
    (slots : Slots ts) (members : List (Option String × Doc)) :
    readMembers source fields slots members = readMembers source fields' slots members := by
  induction members generalizing slots with
  | nil => rfl
  | cons m members ih =>
    obtain ⟨_ | k, d⟩ := m
    · rfl
    · rw [readMembers, readMembers, same]
      simp only [ih]

end Fields

end Json

/-! ## Faults -/

namespace FaultKind

theorem after?_append (front cs : List Char) : after? front (front ++ cs) = some cs := by
  simp [after?, List.isPrefixOf_iff_prefix]

/-- The kinds without a bank are told apart by their names. None of these begins like the name of
a kind with a bank or ends in a blank. -/
theorem find?_shortName : ∀ k ∈ simpleKinds,
    simpleKinds.find? (·.shortName == k.shortName) = some k ∧
      after? "PcrValueMismatch".toList k.shortName.toList = none ∧
      k.shortName.toList.getLast?.map Text.isBlank = some false := by
  decide +kernel

theorem mem_simpleKinds_or (k : FaultKind) :
    k ∈ simpleKinds ∨ ∃ bank, k = .pcrValueMismatch bank := by
  cases k with
  | pcrValueMismatch bank => exact .inr ⟨bank, rfl⟩
  | _ => exact .inl (by decide)

theorem toList_shortName_pcrValueMismatch (bank : Bank) :
    (shortName (.pcrValueMismatch bank)).toList =
      "PcrValueMismatch".toList ++ bank.name.toList := String.toList_append

theorem getLast?_shortName (k : FaultKind) :
    ∃ c, k.shortName.toList.getLast? = some c ∧ Text.isBlank c = false := by
  rcases k.mem_simpleKinds_or with simple | ⟨bank, rfl⟩
  · obtain ⟨-, -, last⟩ := find?_shortName k simple
    exact Option.map_eq_some_iff.mp last
  · have last : bank.name.toList.getLast?.map Text.isBlank = some false := by
      cases bank <;> rfl
    obtain ⟨c, ends, visible⟩ := Option.map_eq_some_iff.mp last
    refine ⟨c, ?_, visible⟩
    rw [toList_shortName_pcrValueMismatch, List.getLast?_append, ends, Option.some_or]

/-- A published name begins with the namespace, and has no blanks around it. -/
theorem trimChars_fullName (k : FaultKind) :
    Text.trimChars k.fullName.toList = nameSpace.toList ++ k.shortName.toList := by
  obtain ⟨l, ends, visible⟩ := k.getLast?_shortName
  rw [fullName, String.toList_append]
  refine Text.trimChars_eq_self ?_ ?_
  · intro c h
    obtain rfl : 'c' = c := Option.some.inj h
    rfl
  · intro c h
    rw [List.getLast?_append, ends, Option.some_or] at h
    obtain rfl := Option.some.inj h
    exact visible

/-- A kind is read back from its published name. -/
theorem ofName?_fullName (k : FaultKind) : ofName? k.fullName = some k := by
  simp only [ofName?, trimChars_fullName, after?_append, Option.getD_some]
  rcases k.mem_simpleKinds_or with simple | ⟨bank, rfl⟩
  · obtain ⟨found, other, -⟩ := find?_shortName k simple
    simp only [other, String.ofList_toList, found]
  · simp only [toList_shortName_pcrValueMismatch, after?_append, String.ofList_toList]
    cases bank <;> rfl

theorem restores (k : FaultKind) : FaultKind.format.Restores k :=
  restores_via (restores_text _) (by simp only [FaultKind.parse, k.ofName?_fullName]; rfl)

end FaultKind
theorem FlavorPart.restores (p : FlavorPart) : FlavorPart.format.Restores p :=
  restores_named (by cases p <;> rfl)

theorem Measurement.restores (m : Measurement) : Measurement.format.Restores m :=
  restores_record (by decide) ⟨.required m.kind.restores, .required (restores_text _),
    .required (restores_text _), keeps_optional_text _ _, keeps_optional_text _ _, trivial⟩ rfl

namespace Fault

/-- The index that the fault names, if any, is one that can be read. -/
def IndexFits (f : Fault) : Prop := ∀ n ∈ f.pcrIndex, n < Nat.pow 2 8

theorem restores {f : Fault} (fits : f.IndexFits) : Fault.format.Restores f :=
  restores_record (by decide) ⟨.required f.kind.restores, .required (restores_text _),
    .optional fun n hn => ⟨restores_natural (fits n hn), Json.noConfusion⟩,
    .optional fun b _ => ⟨b.restores, Json.noConfusion⟩, keeps_optional_text _ _,
    keeps_optional_text _ _, .listIfAny fun e _ => e.restores, .listIfAny fun e _ => e.restores,
    .listIfAny fun m _ => m.restores, .listIfAny fun m _ => m.restores,
    .listIfAny fun m _ => m.restores, trivial⟩ rfl

end Fault

/-! ## Results -/

/-- The expected value, if there is one, is no `null` and has unique keys. -/
def RuleInfo.ExpectedReadable (i : RuleInfo) : Prop := ∀ v ∈ i.expected, v ≠ .null ∧ UniqueKeys v

theorem RuleInfo.restores {i : RuleInfo} (h : i.ExpectedReadable) : RuleInfo.format.Restores i :=
  restores_record (by decide) ⟨.required (restores_text _),
    .required (restores_list fun p _ => p.restores),
    .optional fun v hv => ⟨restores_any (h v hv).2, (h v hv).1⟩, trivial⟩ rfl

namespace RuleResult

/-- What the result is made of can be read back. -/
structure Readable (r : RuleResult) : Prop where
  expected : r.rule.ExpectedReadable
  indices : ∀ f ∈ r.faults, f.IndexFits

/-- The fields that are read, as they are written. -/
def keptFields : Fields [RuleInfo, Option Uuid, List Fault, List EventMismatch] :=
  .cons (.required "rule" RuleInfo.format) (.cons (.optional "flavor_id" Uuid.format)
    (.cons (.listOrEmpty "faults" Fault.format)
      (.cons (.listIfAny "field_mismatches" EventMismatch.format) .nil)))

/-- What is left out of the written form does not matter to what is read. -/
theorem read_eq_keptFields (members : List (Option String × Doc)) :
    RuleResult.fields.read .value (.object members) = keptFields.read .value (.object members) := by
  have placed : ∀ key d slots, Fields.put? .value key d RuleResult.fields slots =
      Fields.put? .value key d keptFields slots := fun _ _ _ => rfl
  have completed : ∀ slots, Fields.complete RuleResult.fields slots =
      Fields.complete keptFields slots := fun _ => rfl
  rw [Fields.read, Fields.read, Fields.readMembers_congr placed, funext completed]
  rfl

/-- The members that are written are those of the parts, with the verdict among them. -/
theorem exists_write_eq (r : RuleResult) : ∃ front back,
    keptFields.write (r.rule, r.flavorId, r.faults, r.mismatches, ()) = front ++ back ∧
      RuleResult.format.write r = .object (front ++ ("trusted", .bool r.trusted) :: back) := by
  refine ⟨(Fields.cons (.required "rule" RuleInfo.format)
      (.cons (.optional "flavor_id" Uuid.format) .nil)).write (r.rule, r.flavorId, ()),
    (Fields.cons (.listOrEmpty "faults" Fault.format)
      (.cons (.listIfAny "field_mismatches" EventMismatch.format) .nil)).write
        (r.faults, r.mismatches, ()), ?_, ?_⟩
  · obtain ⟨rule, _ | u, trusted, faults, mismatches, verdict⟩ := r <;> rfl
  · obtain ⟨rule, _ | u, trusted, faults, mismatches, verdict⟩ := r <;> rfl

/-- The verdict that was written is passed over, and comes back with the faults. -/
theorem restores {r : RuleResult} (h : r.Readable) : RuleResult.format.Restores r := by
  obtain ⟨front, back, parts, written⟩ := r.exists_write_eq
  have keeps : keptFields.Keeps (r.rule, r.flavorId, r.faults, r.mismatches, ()) :=
    ⟨.required (RuleInfo.restores h.expected),
      .optional fun u _ => ⟨u.restores, Json.noConfusion⟩,
      .listOrEmpty fun f hf => Fault.restores (h.indices f hf),
      .listIfAny fun m _ => m.restores, trivial⟩
  have read : RuleResult.fields.read .value (Doc.ofJson (RuleResult.format.write r)) =
      .ok (r.rule, r.flavorId, r.faults, r.mismatches, ()) := by
    have unknown : keptFields.knows "trusted" = false := by decide
    have plain := Fields.read_write (show keptFields.distinct = true by decide) keeps
    rw [parts, Doc.ofJson, Doc.ofMembers_append, Fields.read] at plain
    rw [written, Doc.ofJson, Doc.ofMembers_append, Doc.ofMembers, read_eq_keptFields, Fields.read,
      Fields.readMembers_of_unknown unknown rfl]
    exact plain
  show _ <$> RuleResult.fields.read .value (Doc.ofJson (RuleResult.format.write r)) = _
  rw [read]
  exact congrArg Except.ok r.ofFaults_eq_self

end RuleResult

namespace TrustReport

theorem restores {r : TrustReport} (h : ∀ x ∈ r.results, x.Readable) :
    TrustReport.format.Restores r :=
  restores_record (by decide) ⟨.required (restores_bool _),
    .required (restores_list fun x hx => RuleResult.restores (h x hx)), trivial⟩ rfl

end TrustReport

/-! ## Reports that were read -/

namespace Json.Format

variable {α : Type} {f : Format α} {source : Source} {d : Doc}

theorem exists_read_of_mem_list {as : List α} (h : f.list.read source d = .ok as) :
    ∀ a ∈ as, ∃ d, f.read source d = .ok a := by
  cases d with
  | list items =>
    change readItems f source items = .ok as at h
    induction items generalizing as with
    | nil =>
      cases h
      exact fun a ha => absurd ha List.not_mem_nil
    | cons d rest ih =>
      obtain ⟨a, here, h⟩ := bind_eq_ok_iff.mp h
      obtain ⟨others, later, made⟩ := bind_eq_ok_iff.mp h
      cases made
      exact List.forall_mem_cons.mpr ⟨⟨d, here⟩, ih later⟩
  | null | bool | number | text | object | unreadable | broken => cases h

theorem lt_of_natural {bits n : Nat} (h : (natural bits).optional.read source d = .ok (some n)) :
    n < Nat.pow 2 bits := by
  cases d with
  | number v =>
    cases v with
    | int k =>
      obtain ⟨n', read, same⟩ := map_eq_ok_iff.mp h
      obtain rfl := Option.some.inj same
      simp only [natural] at read
      split at read
      case isTrue range =>
        obtain rfl := pure_eq_ok_iff.mp read
        exact range.2
      case isFalse => exact absurd read throw_ne_ok
    | float => cases h
  | null | bool | text | list | object | unreadable | broken => cases h

end Json.Format

theorem Fault.indexFits_of_read {source : Source} {d : Doc} {f : Fault}
    (h : Fault.format.read source d = .ok f) : f.IndexFits := by
  obtain ⟨row, read, rfl⟩ := map_eq_ok_iff.mp h
  obtain ⟨-, -, index, -⟩ := Fields.gives_of_read read
  have index_read : ∀ n, (Field.optional "pcr_index" (natural 8)).Gives (some n) →
      n < Nat.pow 2 8 := by
    rintro n (absent | ⟨source, d, read⟩)
    · cases absent
    · exact lt_of_natural read
  exact fun n given => index_read n (given ▸ index)

theorem RuleInfo.expectedReadable_of_read {source : Source} {d : Doc} {i : RuleInfo}
    (h : RuleInfo.format.read source d = .ok i) : i.ExpectedReadable := by
  obtain ⟨row, read, rfl⟩ := map_eq_ok_iff.mp h
  obtain ⟨-, -, expected, -⟩ := Fields.gives_of_read read
  have expected_read : ∀ v, (Field.optional "expected" any).Gives (some v) →
      v ≠ .null ∧ UniqueKeys v := by
    rintro v (absent | ⟨source, d, read⟩)
    · cases absent
    · exact unique_of_optional_any read
  exact fun v given => expected_read v (given ▸ expected)

theorem RuleResult.readable_of_read {source : Source} {d : Doc} {r : RuleResult}
    (h : RuleResult.format.read source d = .ok r) : r.Readable := by
  obtain ⟨row, read, rfl⟩ := map_eq_ok_iff.mp h
  obtain ⟨rule, -, faults, -⟩ := Fields.gives_of_read read
  have rule_read : ∀ i, (Field.required "rule" RuleInfo.format).Gives i →
      i.ExpectedReadable := by
    rintro i (absent | ⟨source, d, read⟩)
    · cases absent
    · exact RuleInfo.expectedReadable_of_read read
  have faults_read : ∀ fs, (Field.listOrEmpty "faults" Fault.format).Gives fs →
      ∀ f ∈ fs, f.IndexFits := by
    rintro fs (absent | ⟨source, d, read⟩) f hf
    · cases absent
      cases hf
    · obtain ⟨d, read⟩ := exists_read_of_mem_list read f hf
      exact Fault.indexFits_of_read read
  exact ⟨rule_read _ rule, faults_read _ faults⟩

theorem TrustReport.readable_of_read {source : Source} {d : Doc} {r : TrustReport}
    (h : TrustReport.format.read source d = .ok r) : ∀ x ∈ r.results, x.Readable := by
  obtain ⟨row, read, rfl⟩ := map_eq_ok_iff.mp h
  obtain ⟨-, results, -⟩ := Fields.gives_of_read read
  intro x hx
  rcases results with absent | ⟨source, d, read⟩
  · cases absent
  · obtain ⟨d, read⟩ := exists_read_of_mem_list read x hx
    exact RuleResult.readable_of_read read

end HostTrust
