/-
HostTrust.Proofs.FlavorRoundTrip — a signed flavor that was read, written and
read again.

Almost every format of a flavor restores each of its values, whether it was read
or not: the written form leaves out only what an absent member stands for. The
free sections are the exception. They may be any values, so one that is `null`
or has a key twice would not come back; but no such section comes out of a
document (`freeSections_of_read`). So a flavor that was accepted is accepted
again when it is written, and is the same (`ofJson_write_of_accepted`).
-/
import HostTrust.Flavor.Format
import HostTrust.Proofs.RecordRoundTrip

namespace HostTrust

open Json Json.Format Outcome

/-! ## Registers and events -/

theorem Bank.restores (b : Bank) : Bank.format.Restores b :=
  restores_named (by cases b <;> rfl)

theorem Pcr.restores (p : Pcr) : Pcr.format.Restores p := by
  have bits : p.index.val < Nat.pow 2 32 := Nat.lt_of_lt_of_le p.index.isLt (by decide)
  refine restores_via (restores_record (by decide) ?_ rfl) ?_
  · exact ⟨.required (restores_natural bits), .required p.bank.restores, trivial⟩
  · simp only [Pcr.ofParts, Pcr.ofIndex, dif_pos p.index.isLt]
    rfl

theorem NameSet.restores (s : NameSet) : NameSet.format.Restores s :=
  restores_via (restores_list fun a _ => restores_text a) (congrArg Except.ok s.ofList_toList)

theorem NameSet.keeps_field (name : String) (s : NameSet) : (NameSet.field name).Keeps s where
  absent h := by
    obtain ⟨names, ascending⟩ := s
    obtain rfl : names = [] := List.isEmpty_iff.mp h
    rfl
  restores _ := s.restores

theorem Event.restores (e : Event) : Event.format.Restores e :=
  restores_record (by decide) ⟨.required (restores_text _), .textOrEmpty _,
    NameSet.keeps_field _ _, .required (restores_text _), trivial⟩ rfl

/-! ## Parts of flavors -/

theorem Uuid.restores (u : Uuid) : Uuid.format.Restores u :=
  restores_via (restores_text _) (by simp only [u.ofText?_display])

theorem MeasuredKind.restores (k : MeasuredKind) : MeasuredKind.format.Restores k :=
  restores_named (by cases k <;> rfl)

/-- A map is restored if its values are. -/
theorem NameMap.restores {α : Type} {f : Format α} {m : NameMap α}
    (h : ∀ e ∈ m.entries, f.Restores e.2) : (NameMap.format f).Restores m := by
  have read : ∀ entries : List (String × α), (∀ e ∈ entries, f.Restores e.2) →
      readEntries .ok f .value
        (Doc.ofMembers (entries.map fun e => (e.1, f.write e.2))) = .ok entries := by
    intro entries
    induction entries with
    | nil => exact fun _ => rfl
    | cons e rest ih =>
      intro h
      have here : f.read .value (Doc.ofJson (f.write e.2)) = .ok e.2 := h e (.head _)
      rw [List.map_cons, Doc.ofMembers, readEntries]
      simp only [bind, Except.bind, here, ih fun d hd => h d (.tail _ hd)]
      rfl
  simp only [Restores, NameMap.format, Doc.ofJson]
  rw [read m.entries h]
  exact congrArg Except.ok m.ofList_entries

/-- A missing text is no obstacle. -/
theorem keeps_optional_text (name : String) (o : Option String) :
    (Field.optional name .text).Keeps o :=
  .optional fun a _ => ⟨restores_text a, Json.noConfusion⟩

theorem FlavorDescription.restores (d : FlavorDescription) : FlavorDescription.format.Restores d :=
  restores_record (by decide) ⟨keeps_optional_text _ _, keeps_optional_text _ _,
    keeps_optional_text _ _, keeps_optional_text _ _, keeps_optional_text _ _,
    keeps_optional_text _ _, keeps_optional_text _ _, trivial⟩ rfl

theorem FlavorMeta.restores (m : FlavorMeta) : FlavorMeta.format.Restores m :=
  restores_record (by decide) ⟨.required m.id.restores, keeps_optional_text _ _,
    .withDefault m.description.restores, trivial⟩ rfl

theorem ExpectedEvents.restores (e : ExpectedEvents) : ExpectedEvents.format.Restores e :=
  restores_record (by decide) ⟨.listOrEmpty fun e _ => e.restores, NameSet.keeps_field _ _,
    trivial⟩ rfl

theorem PcrPolicy.restores (p : PcrPolicy) : PcrPolicy.format.Restores p :=
  restores_record (by decide) ⟨.required p.pcr.restores, .required (restores_text _),
    .withDefault (restores_bool _),
    .optional fun e _ => ⟨e.restores, Json.noConfusion⟩,
    .optional fun events _ => ⟨restores_list fun e _ => e.restores, Json.noConfusion⟩,
    trivial⟩ rfl

theorem External.restores (e : External) : External.format.Restores e := by
  have certificate : ∀ c, TagCertificate.format.Restores c := fun c =>
    restores_record (by decide) ⟨.required (restores_text _), trivial⟩ rfl
  have tag : ∀ t, AssetTag.format.Restores t := fun t =>
    restores_record (by decide) ⟨.optional fun c _ => ⟨certificate c, Json.noConfusion⟩, trivial⟩
      rfl
  exact restores_record (by decide) ⟨.optional fun t _ => ⟨tag t, Json.noConfusion⟩, trivial⟩ rfl

theorem Software.restores (s : Software) : Software.format.Restores s := by
  have measurement : ∀ m, SoftwareMeasurement.format.Restores m := fun m =>
    restores_record (by decide) ⟨.required m.kind.restores, .required (restores_text _),
      keeps_optional_text _ _, keeps_optional_text _ _, trivial⟩ rfl
  exact restores_record (by decide) ⟨.withDefault (NameMap.restores fun e _ => measurement e.2),
    .required (restores_text _), trivial⟩ rfl

/-! ## Free sections -/

/-- The values of the free sections are no `null` and have unique keys. -/
def Flavor.FreeSectionsReadable (f : Flavor) : Prop :=
  ∀ v, f.bios = some v ∨ f.hardware = some v → v ≠ .null ∧ UniqueKeys v

theorem Flavor.restores {f : Flavor} (h : f.FreeSectionsReadable) : Flavor.format.Restores f := by
  have section_kept : ∀ name (o : Option Json), (∀ v ∈ o, v ≠ .null ∧ UniqueKeys v) →
      (Field.optional name .any).Keeps o := fun name o h =>
    .optional fun v hv => ⟨restores_any (h v hv).2, (h v hv).1⟩
  exact restores_record (by decide) ⟨.optional fun m _ => ⟨m.restores, Json.noConfusion⟩,
    section_kept _ _ fun v hv => h v (.inl hv), section_kept _ _ fun v hv => h v (.inr hv),
    .listIfAny fun p _ => p.restores, .optional fun e _ => ⟨e.restores, Json.noConfusion⟩,
    .optional fun s _ => ⟨s.restores, Json.noConfusion⟩, trivial⟩ rfl

/-- A free section that was read can be read again. -/
theorem freeSections_of_read {source : Source} {d : Doc} {f : Flavor}
    (h : Flavor.format.read source d = .ok f) : f.FreeSectionsReadable := by
  obtain ⟨row, read, rfl⟩ := map_eq_ok_iff.mp h
  obtain ⟨-, bios, hardware, -⟩ := Fields.gives_of_read read
  have section_read : ∀ name v, (Field.optional name .any).Gives (some v) →
      v ≠ .null ∧ UniqueKeys v := by
    rintro name v (absent | ⟨source, d, read⟩)
    · cases absent
    · exact unique_of_optional_any read
  rintro v (given | given)
  · exact section_read "bios" v (given ▸ bios)
  · exact section_read "hardware" v (given ▸ hardware)

namespace SignedFlavor

theorem restores {s : SignedFlavor} (h : s.flavor.FreeSectionsReadable) :
    SignedFlavor.format.Restores s :=
  restores_record (by decide) ⟨.required (Flavor.restores h), .withDefault (restores_text _),
    trivial⟩ rfl

theorem freeSections_of_ofJson {v : Json} {s : SignedFlavor} (h : ofJson v = .ok s) :
    s.flavor.FreeSectionsReadable := by
  obtain ⟨row, read, rfl⟩ := map_eq_ok_iff.mp (mapError_eq_ok_iff.mp h)
  obtain ⟨absent | ⟨source, d, flavor⟩, -⟩ := Fields.gives_of_read read
  · cases absent
  · exact freeSections_of_read flavor

/-- **A signature survives writing.** A flavor that was accepted is accepted again when it is
written, whatever it was read from; it is the same flavor with the same signature, and the
signature covers the same bytes. -/
theorem ofJson_write_of_accepted {v : Json} {s : SignedFlavor} (h : ofJson v = .ok s) :
    ∃ t, ofJson (SignedFlavor.format.write s) = .ok t ∧ t = s ∧
      t.signingBytes = s.signingBytes := by
  have read : SignedFlavor.format.readJson (SignedFlavor.format.write s) = .ok s :=
    restores (freeSections_of_ofJson h)
  exact ⟨s, mapError_eq_ok_iff.mpr read, rfl, rfl⟩

end SignedFlavor

namespace Sample

open SignedFlavor

/-- A flavor with lists in the place of structures, an unknown member, a `null`, and a set with a
repeated name that is not in order. -/
def oddFlavorJson : Json :=
  .object [("extra", .list []), ("flavor", .object [
    ("meta", .list [.text "5F5F5F5F5F5F5F5F5F5F5F5F5F5F5F5F", .null]),
    ("bios", .null),
    ("hardware", .object [("k", .nat 2)]),
    ("pcrs", .list [.object [("pcr", .list [.nat 0, .text "sha256"]), ("measurement", .text "ab"),
      ("eventlog_equals", .list [.list [], .list [.text "b", .text "a", .text "b"]])]])])]

def firstRegister (bank : Bank) : Pcr := ⟨⟨0, Nat.zero_lt_succ 23⟩, bank⟩

def oddFlavor : SignedFlavor where
  flavor :=
    { metadata := some ⟨.ofByte 0x5F, none, .blank⟩
      bios := none
      hardware := some (.object [("k", .nat 2)])
      pcrs := [⟨firstRegister .sha256, "ab", false, some ⟨[], ⟨["a", "b"], by decide⟩⟩, none⟩]
      external := none
      software := none }
  signature := ""

theorem odd_restored : ofJson oddFlavorJson = .ok oddFlavor ∧
    ∃ t, ofJson (SignedFlavor.format.write oddFlavor) = .ok t ∧ t = oddFlavor ∧
      t.signingBytes = oddFlavor.signingBytes := by
  have accepted : ofJson oddFlavorJson = .ok oddFlavor := rfl
  exact ⟨accepted, ofJson_write_of_accepted accepted⟩

end Sample

end HostTrust
