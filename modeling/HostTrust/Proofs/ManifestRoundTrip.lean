/-
HostTrust.Proofs.ManifestRoundTrip — a report of a host that was written and read
again.

The format of a manifest restores every manifest, whether it was read or not
(`HostManifest.restores`): what is left out is what an absent member stands for, a
field with two names is written under its first, and the entries of a map by bank
stand in the order of the banks, in which they are collected again
(`BankMap.ofList_toList`). A manifest that comes back is the same, so its register
data is as consistent as it was.
-/
import HostTrust.Proofs.FlavorRoundTrip

namespace HostTrust

open Json Json.Format Outcome

/-- A further name under which a field is read does not matter to what is written. -/
theorem Json.Field.Keeps.also {α : Type} {field : Field α} {a : α} (h : field.Keeps a)
    (name : String) : (field.also name).Keeps a := ⟨h.absent, h.restores⟩

/-! ## Register data -/

theorem PcrValue.restores (v : PcrValue) : PcrValue.format.Restores v := by
  have bits : v.pcr.index.val < Nat.pow 2 32 :=
    Nat.lt_of_lt_of_le v.pcr.index.isLt (by decide)
  refine restores_via (restores_record (by decide) ?_ rfl) ?_
  · exact ⟨.required (restores_natural bits), .required (restores_text _),
      .required v.pcr.bank.restores, trivial⟩
  · simp only [Pcr.ofParts, Pcr.ofIndex, dif_pos v.pcr.index.isLt]
    rfl

theorem EventMismatch.restores (m : EventMismatch) : EventMismatch.format.Restores m :=
  restores_record (by decide) ⟨.required m.expected.restores, .required m.actual.restores,
    trivial⟩ rfl

theorem EventLog.restores (l : EventLog) : EventLog.format.Restores l :=
  restores_record (by decide) ⟨.required l.pcr.restores,
    (Field.Keeps.listOrEmpty fun e _ => e.restores).also _, trivial⟩ rfl

namespace BankMap

variable {α : Type}

/-- A map is made of its entries. -/
theorem ofList_toList (m : BankMap α) : ofList m.toList = m := by
  obtain ⟨sha1, sha256, sha384, sha512⟩ := m
  cases sha1 <;> cases sha256 <;> cases sha384 <;> cases sha512 <;> rfl

theorem readEntries_write {f : Format α} {entries : List (Bank × α)}
    (h : ∀ e ∈ entries, f.Restores e.2) :
    readEntries Bank.ofKey f .value
      (Doc.ofMembers (entries.map fun e => (e.1.name, f.write e.2))) = .ok entries := by
  induction entries with
  | nil => rfl
  | cons e rest ih =>
    have key : Bank.ofKey e.1.name = .ok e.1 := by cases e.1 <;> rfl
    have here : f.read .value (Doc.ofJson (f.write e.2)) = .ok e.2 := h e (.head _)
    rw [List.map_cons, Doc.ofMembers, readEntries]
    simp only [bind, Except.bind, key, here, ih fun d hd => h d (.tail _ hd)]
    rfl

theorem restores {f : Format α} (h : ∀ a, f.Restores a) (m : BankMap α) :
    (BankMap.format f).Restores m := by
  simp only [Restores, BankMap.format, Doc.ofJson]
  rw [readEntries_write fun e _ => h e.2]
  exact congrArg Except.ok m.ofList_toList

end BankMap

theorem PcrManifest.restores (m : PcrManifest) : PcrManifest.format.Restores m :=
  restores_record (by decide) ⟨.listOrEmpty fun v _ => v.restores,
    .listOrEmpty fun v _ => v.restores,
    (Field.Keeps.withDefault
      (BankMap.restores (fun _ => restores_list fun l _ => l.restores) _)).also _, trivial⟩ rfl

/-! ## Manifests -/

theorem HostInfo.restores (i : HostInfo) : HostInfo.format.Restores i :=
  restores_record (by decide) ⟨.textOrEmpty _, .textOrEmpty _, .textOrEmpty _, .textOrEmpty _,
    .textOrEmpty _, .textOrEmpty _, .textOrEmpty _, .textOrEmpty _, trivial⟩ rfl

theorem HostManifest.restores (m : HostManifest) : HostManifest.format.Restores m :=
  restores_record (by decide) ⟨.withDefault m.hostInfo.restores,
    .optional fun p _ => ⟨p.restores, Json.noConfusion⟩, keeps_optional_text _ _,
    keeps_optional_text _ _, keeps_optional_text _ _, .listIfAny fun _ _ => restores_text _,
    trivial⟩ rfl

end HostTrust
