/-
HostTrust.Proofs.SignatureCoverage — a signature covers the whole flavor.

The bytes that a signature covers are the compact form of the flavor. That form
leaves out what is absent or empty, so it has to be shown that nothing is lost.
Two steps do it: the bytes determine the value that is written
(`Json.toBytes_injective`), and a flavor that was accepted is read back from
that value (`Flavor.restores`). The first step needs a value without floating
point numbers. Those can only come from the free sections, since no other part
of a flavor is written as one (`Flavor.floatFree_write`).
-/
import HostTrust.Proofs.CompactForm
import HostTrust.Proofs.FlavorRoundTrip

namespace HostTrust

open Json

namespace Json

/-! ## Written forms without floating point numbers -/

theorem membersFloatFree_append {ms ns : List (String × Json)} (h : MembersFloatFree ms)
    (h' : MembersFloatFree ns) : MembersFloatFree (ms ++ ns) := by
  induction ms with
  | nil => exact h'
  | cons m ms ih => exact ⟨h.1, ih h.2⟩

/-- Each field writes its value without floating point numbers. -/
def Fields.FloatFree : {ts : List Type} → Fields ts → Row ts → Prop
  | _, .nil, () => True
  | _, .cons field rest, (a, row) => Json.FloatFree (field.format.write a) ∧ FloatFree rest row

theorem Fields.membersFloatFree_write {ts : List Type} {fields : Fields ts} {row : Row ts}
    (h : fields.FloatFree row) : MembersFloatFree (fields.write row) := by
  induction fields with
  | nil => trivial
  | cons field rest ih =>
    obtain ⟨a, row⟩ := row
    rw [write]
    refine membersFloatFree_append ?_ (ih h.2)
    split
    · trivial
    · exact ⟨h.1, trivial⟩

namespace Format

variable {α : Type} {f : Format α}

theorem floatFree_record {ts : List Type} {fields : Fields ts} {build : Row ts → α}
    {parts : α → Row ts} {a : α} (h : fields.FloatFree (parts a)) :
    FloatFree ((fields.record build parts).write a) := Fields.membersFloatFree_write h

theorem floatFree_via {β : Type} {f : Format β} {make : β → Except Misfit α} {parts : α → β} {a : α}
    (h : FloatFree (f.write (parts a))) : FloatFree ((via f make parts).write a) := h

theorem floatFree_optional {o : Option α} (h : ∀ a ∈ o, FloatFree (f.write a)) :
    FloatFree (f.optional.write o) := by
  cases o with
  | none => trivial
  | some a => exact h a rfl

theorem floatFree_list {as : List α} (h : ∀ a ∈ as, FloatFree (f.write a)) :
    FloatFree (f.list.write as) := by
  show ItemsFloatFree (as.map f.write)
  induction as with
  | nil => trivial
  | cons a rest ih => exact ⟨h a (.head _), ih fun b hb => h b (.tail _ hb)⟩

theorem floatFree_map {m : NameMap α} (h : ∀ a, FloatFree (f.write a)) :
    FloatFree ((NameMap.format f).write m) := by
  show MembersFloatFree (m.entries.map fun e => (e.1, f.write e.2))
  induction m.entries with
  | nil => trivial
  | cons e rest ih => exact ⟨h e.2, ih⟩

end Format

end Json

open Json.Format

/-! ## Flavors -/

theorem Event.floatFree_write (e : Event) : FloatFree (Event.format.write e) :=
  floatFree_record ⟨trivial, trivial, floatFree_list fun _ _ => trivial, trivial, trivial⟩

theorem floatFree_optional_text (o : Option String) : FloatFree (Format.text.optional.write o) :=
  floatFree_optional fun _ _ => trivial

theorem FlavorMeta.floatFree_write (m : FlavorMeta) : FloatFree (FlavorMeta.format.write m) := by
  have description : FloatFree (FlavorDescription.format.write m.description) :=
    floatFree_record ⟨floatFree_optional_text _, floatFree_optional_text _,
      floatFree_optional_text _, floatFree_optional_text _, floatFree_optional_text _,
      floatFree_optional_text _, floatFree_optional_text _, trivial⟩
  exact floatFree_record ⟨trivial, floatFree_optional_text _, description, trivial⟩

theorem PcrPolicy.floatFree_write (p : PcrPolicy) : FloatFree (PcrPolicy.format.write p) := by
  have pcr : FloatFree (Pcr.format.write p.pcr) :=
    floatFree_via (floatFree_record ⟨trivial, trivial, trivial⟩)
  have expected : ∀ e, FloatFree (ExpectedEvents.format.write e) := fun e =>
    floatFree_record ⟨floatFree_list fun e _ => e.floatFree_write,
      floatFree_list fun _ _ => trivial, trivial⟩
  exact floatFree_record ⟨pcr, trivial, trivial, floatFree_optional fun e _ => expected e,
    floatFree_optional fun events _ => floatFree_list fun e _ => e.floatFree_write, trivial⟩

theorem External.floatFree_write (e : External) : FloatFree (External.format.write e) := by
  have certificate : ∀ c, FloatFree (TagCertificate.format.write c) := fun c =>
    floatFree_record ⟨trivial, trivial⟩
  have tag : ∀ t, FloatFree (AssetTag.format.write t) := fun t =>
    floatFree_record ⟨floatFree_optional fun c _ => certificate c, trivial⟩
  exact floatFree_record ⟨floatFree_optional fun t _ => tag t, trivial⟩

theorem Software.floatFree_write (s : Software) : FloatFree (Software.format.write s) := by
  have measurement : ∀ m, FloatFree (SoftwareMeasurement.format.write m) := fun m =>
    floatFree_record ⟨trivial, trivial, floatFree_optional_text _, floatFree_optional_text _,
      trivial⟩
  exact floatFree_record ⟨floatFree_map measurement, trivial, trivial⟩

namespace Flavor

/-- There is no floating point number in a free section. -/
def FloatFree (f : Flavor) : Prop :=
  ∀ v, f.bios = some v ∨ f.hardware = some v → v.FloatFree

/-- Only a free section can be written with floating point numbers. -/
theorem floatFree_write {f : Flavor} (h : f.FloatFree) : Json.FloatFree (Flavor.format.write f) :=
  floatFree_record ⟨floatFree_optional fun m _ => m.floatFree_write,
    floatFree_optional fun v hv => h v (.inl hv), floatFree_optional fun v hv => h v (.inr hv),
    floatFree_list fun p _ => p.floatFree_write, floatFree_optional fun e _ => e.floatFree_write,
    floatFree_optional fun s _ => s.floatFree_write, trivial⟩

/-- Flavors that come back from their written forms are the same if these are. -/
theorem eq_of_write_eq {f g : Flavor} (readable : f.FreeSectionsReadable)
    (readable' : g.FreeSectionsReadable)
    (h : Flavor.format.write f = Flavor.format.write g) : f = g := by
  have restored : Flavor.format.read .value (Doc.ofJson (Flavor.format.write f)) = .ok f :=
    Flavor.restores readable
  have restored' : Flavor.format.read .value (Doc.ofJson (Flavor.format.write g)) = .ok g :=
    Flavor.restores readable'
  rw [h, restored'] at restored
  exact (Except.ok.inj restored).symm

end Flavor

namespace SignedFlavor

/-- **A signature covers the whole flavor.** Two flavors that were accepted and are different in
any of their parts do not have the same bytes under their signatures, unless there are floating
point numbers in a free section. -/
theorem signingBytes_ne_of_accepted {v w : Json} {s t : SignedFlavor} (accepted : ofJson v = .ok s)
    (accepted' : ofJson w = .ok t) (free : s.flavor.FloatFree) (free' : t.flavor.FloatFree)
    (differ : s.flavor ≠ t.flavor) : s.signingBytes ≠ t.signingBytes := by
  intro same
  have written : Flavor.format.write s.flavor = Flavor.format.write t.flavor :=
    toBytes_injective (Flavor.floatFree_write free) (Flavor.floatFree_write free') same
  exact differ (Flavor.eq_of_write_eq (freeSections_of_ofJson accepted)
    (freeSections_of_ofJson accepted') written)

end SignedFlavor

namespace Sample

open SignedFlavor

/-- A flavor with one policy, which has the given members beside those that it must have. -/
def policyJson (more : List (String × Json)) : Json :=
  .object [("flavor", .object [("pcrs", .list [.object
    ([("pcr", .object [("index", .nat 0), ("bank", .text "SHA1")]), ("measurement", .text "")] ++
      more)])])]

def policyFlavor (logIncludes : Option (List Event)) : SignedFlavor :=
  ⟨⟨none, none, none, [⟨firstRegister .sha1, "", false, none, logIncludes⟩], none, none⟩, ""⟩

/-- Asking for no events at all is not the same as not asking for events. -/
theorem empty_differs : ofJson (policyJson []) = .ok (policyFlavor none) ∧
    ofJson (policyJson [("eventlog_includes", .list [])]) = .ok (policyFlavor (some [])) ∧
    (policyFlavor none).signingBytes ≠ (policyFlavor (some [])).signingBytes := by
  have accepted : ofJson (policyJson []) = .ok (policyFlavor none) := rfl
  have accepted' : ofJson (policyJson [("eventlog_includes", .list [])]) =
      .ok (policyFlavor (some [])) := rfl
  have free : ∀ log, (policyFlavor log).flavor.FloatFree := by
    rintro log v (bios | hardware)
    · cases bios
    · cases hardware
  have differ : (policyFlavor none).flavor ≠ (policyFlavor (some [])).flavor := fun same =>
    absurd (congrArg Flavor.pcrs same) (by decide)
  exact ⟨accepted, accepted', signingBytes_ne_of_accepted accepted accepted' (free _) (free _)
    differ⟩

end Sample

end HostTrust
