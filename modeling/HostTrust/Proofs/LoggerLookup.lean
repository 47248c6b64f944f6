/-
HostTrust.Proofs.LoggerLookup — looking up the entry of a module, and where its
messages go.

Messages go by the most specific module (`LogSettings.Governs`), in whatever
order the entries stand. The lookup takes the first entry whose name the path
begins with, letter by letter. The two agree exactly if no other such entry
stands in front of the one that governs the module, and that one is found at
all: for the root this means that the path begins with its name
(`LogSettings.entryFor?_of_route`).
-/
import HostTrust.Files.Tree
import HostTrust.Logging.Routing
import Mathlib.Data.List.MinMax
import Mathlib.Data.List.Nodup

namespace HostTrust

/-! ## Names -/

theorem isWithin_iff {path around : String} : isWithin path around = true ↔
    path = around ∨ around.toList ++ "::".toList <+: path.toList := by
  simp only [isWithin, Bool.or_eq_true, beq_iff_eq, List.isPrefixOf_iff_prefix]

theorem prefix_of_isWithin {path around : String} (h : isWithin path around = true) :
    around.toList <+: path.toList := by
  rcases isWithin_iff.mp h with rfl | h
  · exact List.prefix_refl _
  · exact (List.prefix_append _ _).trans h

/-- Of the modules around a module, each is told by the length of its path. -/
theorem eq_of_isWithin {path a b : String} (ha : isWithin path a = true)
    (hb : isWithin path b = true) (same : a.length = b.length) : a = b := by
  refine String.toList_inj.mp ?_
  have length : a.toList.length = b.toList.length := by
    rw [String.length_toList, String.length_toList, same]
  exact (List.prefix_of_prefix_length_le (prefix_of_isWithin ha) (prefix_of_isWithin hb)
    length.le).eq_of_length length

namespace LogEntry

theorem appender_inj {e f : LogEntry} : e.appender = f.appender ↔ e.modules = f.modules := by
  simp [appender, ← String.toList_inj]

theorem isRoot_iff {e : LogEntry} : e.isRoot = true ↔ e.modules = rootName := beq_iff_eq

end LogEntry

/-! ## Layouts -/

namespace LogLayout

/-- The entries of a consistent layout have different names. -/
theorem nodup_of_isConsistent {s : LogSettings} (h : (ofSettings s).isConsistent = true) :
    (s.entries.map LogEntry.modules).Nodup := by
  simp only [isConsistent, Bool.and_eq_true, decide_eq_true_eq] at h
  have named : ((s.entries.map LogEntry.modules).map (· ++ "_appender")).Nodup := by
    rw [List.map_map]
    exact h.1.1
  exact List.Nodup.of_map _ named

/-- Both parts of a program that succeeds succeed, the second in what the first has left. -/
theorem exists_of_run_bind_eq_ok {σ ε α β : Type} {x : ExceptT ε (StateM σ) α}
    {f : α → ExceptT ε (StateM σ) β} {b : β} {before after : σ}
    (h : (x >>= f).run before = (.ok b, after)) :
    ∃ a between, x.run before = (.ok a, between) ∧ (f a).run between = (.ok b, after) := by
  rw [ExceptT.run_bind] at h
  change (match (x.run before).1 with
    | .ok a => (f a).run
    | .error e => pure (.error e)) (x.run before).2 = _ at h
  cases came : x.run before with
  | mk r between =>
    rw [came] at h
    cases r with
    | error e => cases h
    | ok a => exact ⟨a, between, rfl, h⟩

/-- A layout that is built is the one that the settings describe, and it is consistent. -/
theorem of_build_eq_ok {σ : Type} {w : Workspace (StateM σ)} {output : String} {s : LogSettings}
    {found left : σ} {l : LogLayout}
    (h : (build w output s).run found = (.ok l, left)) :
    l = ofSettings s ∧ (ofSettings s).isConsistent = true := by
  obtain ⟨-, between, -, h⟩ := exists_of_run_bind_eq_ok h
  by_cases consistent : (ofSettings s).isConsistent = true
  · simp only [consistent, if_true] at h
    obtain ⟨ok, -⟩ := Prod.mk.inj h
    exact ⟨(Except.ok.inj ok).symm, consistent⟩
  · simp only [consistent] at h
    cases h

end LogLayout

namespace LogSettings

variable {s : LogSettings} {path : String} {e f : LogEntry}

theorem Governs.mem (h : s.Governs path e) : e ∈ s.entries := by
  cases h with
  | module mem => exact mem
  | root mem => exact mem

/-- No two entries govern a module. -/
theorem Governs.unique (distinct : (s.entries.map LogEntry.modules).Nodup)
    (he : s.Governs path e) (hf : s.Governs path f) : e = f := by
  have named : e.modules = f.modules := by
    cases he with
    | module mem inner within longest =>
      cases hf with
      | module mem' inner' within' longest' =>
        exact eq_of_isWithin within within' (Nat.le_antisymm
          (longest' e mem inner within) (longest f mem' inner' within'))
      | root _ _ outside => exact absurd within (by simp [outside e mem inner])
    | root mem isRoot outside =>
      cases hf with
      | module mem' inner' within' _ => exact absurd within' (by simp [outside f mem' inner'])
      | root _ isRoot' _ =>
        rw [LogEntry.isRoot_iff.mp isRoot, LogEntry.isRoot_iff.mp isRoot']
  exact List.inj_on_of_nodup_map distinct he.mem hf.mem named

/-- If an entry other than the root is for a module, one of these governs it. -/
theorem exists_governs_of_isWithin (mem : e ∈ s.entries) (inner : e.isRoot = false)
    (within : isWithin path e.modules = true) : ∃ g, g.isRoot = false ∧ s.Governs path g := by
  let around := s.entries.filter fun e => !e.isRoot && isWithin path e.modules
  have mem_around {e : LogEntry} :
      e ∈ around ↔ e ∈ s.entries ∧ e.isRoot = false ∧ isWithin path e.modules = true := by
    simp [around]
  cases longest : around.argmax (·.modules.length) with
  | none =>
    have nothing := List.argmax_eq_none.mp longest
    exact absurd (mem_around.mpr ⟨mem, inner, within⟩) (by simp [nothing])
  | some g =>
    obtain ⟨memG, innerG, withinG⟩ := mem_around.mp (List.argmax_mem longest)
    refine ⟨g, innerG, .module memG innerG withinG fun other memO innerO withinO => ?_⟩
    exact List.le_of_mem_argmax (f := fun e : LogEntry => e.modules.length)
      (mem_around.mpr ⟨memO, innerO, withinO⟩) longest

/-! ## Routing -/

section Routing

variable {route : LogRouting}

theorem mem_loggers_ofSettings {g : ModuleLogger} : g ∈ (LogLayout.ofSettings s).loggers ↔
    ∃ e ∈ s.entries, e.isRoot = false ∧ e.logger = g := by
  simp [LogLayout.ofSettings, and_assoc]

/-- If no logger is for a module, its messages go where those of the root go. -/
theorem route_of_forall_not_isWithin (specific : route.IsMostSpecific)
    (consistent : (LogLayout.ofSettings s).isConsistent = true)
    (h : ∀ e ∈ s.entries, e.isRoot = false → isWithin path e.modules = false) :
    route (.ofSettings s) path = s.root?.toList.map LogEntry.appender := by
  refine specific.root consistent fun g hg => ?_
  obtain ⟨e, mem, inner, rfl⟩ := mem_loggers_ofSettings.mp hg
  exact h e mem inner

theorem root?_eq_some_of_mem (distinct : (s.entries.map LogEntry.modules).Nodup)
    (mem : e ∈ s.entries) (isRoot : e.isRoot = true) : s.root? = some e := by
  cases found : s.root? with
  | none => exact absurd isRoot (List.find?_eq_none.mp found e mem)
  | some r =>
    have named : r.modules = e.modules :=
      (LogEntry.isRoot_iff.mp (List.find?_some found)).trans (LogEntry.isRoot_iff.mp isRoot).symm
    rw [List.inj_on_of_nodup_map distinct (List.mem_of_find?_eq_some found) mem named]

/-- Messages of a module go to the entry that governs it. -/
theorem route_of_governs (specific : route.IsMostSpecific)
    (consistent : (LogLayout.ofSettings s).isConsistent = true) (h : s.Governs path e) :
    route (.ofSettings s) path = [e.appender] := by
  cases h with
  | module mem inner within longest =>
    refine specific.module (g := e.logger) consistent
      (mem_loggers_ofSettings.mpr ⟨e, mem, inner, rfl⟩) within (fun other hOther => ?_) rfl
    obtain ⟨f, memF, innerF, rfl⟩ := mem_loggers_ofSettings.mp hOther
    exact longest f memF innerF
  | root mem isRoot outside =>
    rw [route_of_forall_not_isWithin specific consistent outside,
      root?_eq_some_of_mem (LogLayout.nodup_of_isConsistent consistent) mem isRoot]
    rfl

/-- Messages go nowhere else. -/
theorem governs_of_mem_route (specific : route.IsMostSpecific)
    (consistent : (LogLayout.ofSettings s).isConsistent = true) (mem : e ∈ s.entries)
    (h : e.appender ∈ route (.ofSettings s) path) : s.Governs path e := by
  have distinct := LogLayout.nodup_of_isConsistent consistent
  by_cases inner : ∃ f ∈ s.entries, f.isRoot = false ∧ isWithin path f.modules = true
  · obtain ⟨f, memF, innerF, withinF⟩ := inner
    obtain ⟨g, -, governs⟩ := exists_governs_of_isWithin memF innerF withinF
    rw [route_of_governs specific consistent governs, List.mem_singleton,
      LogEntry.appender_inj] at h
    rwa [List.inj_on_of_nodup_map distinct mem governs.mem h]
  · have outside : ∀ f ∈ s.entries, f.isRoot = false → isWithin path f.modules = false := by
      intro f memF innerF
      by_contra within
      exact inner ⟨f, memF, innerF, by simpa using within⟩
    rw [route_of_forall_not_isWithin specific consistent outside] at h
    obtain ⟨r, found, same⟩ := List.mem_map.mp h
    have found := Option.mem_toList.mp found
    have memR := List.mem_of_find?_eq_some found
    rw [← List.inj_on_of_nodup_map distinct memR mem (LogEntry.appender_inj.mp same)]
    exact .root memR (List.find?_some found) outside

end Routing

/-! ## Looking up -/

theorem entryFor?_eq_some_iff : s.entryFor? path = some e ↔
    e.Begins path ∧ ∃ front back, s.entries = front ++ e :: back ∧
      ∀ f ∈ front, ¬ f.Begins path := by
  simp [entryFor?, LogEntry.Begins, List.find?_eq_some_iff_append, ← List.isPrefixOf_iff_prefix]

theorem entryFor?_eq_none_iff :
    s.entryFor? path = none ↔ ∀ e ∈ s.entries, ¬ e.Begins path := by
  simp [entryFor?, LogEntry.Begins, ← List.isPrefixOf_iff_prefix]

/-- What is looked up is what governs the module. -/
def LookupAgrees (s : LogSettings) (path : String) : Prop :=
  ∀ e, s.entryFor? path = some e ↔ s.Governs path e

theorem governs_of_perm {t : LogSettings} (same : t.entries.Perm s.entries)
    (h : s.Governs path e) : t.Governs path e := by
  cases h with
  | module mem inner within longest =>
    exact .module (same.mem_iff.mpr mem) inner within fun f mem' =>
      longest f (same.mem_iff.mp mem')
  | root mem isRoot outside =>
    exact .root (same.mem_iff.mpr mem) isRoot fun f mem' => outside f (same.mem_iff.mp mem')

/-- Which entry governs a module does not depend on the order of the entries. -/
theorem governs_perm_iff {t : LogSettings} (same : t.entries.Perm s.entries) :
    t.Governs path e ↔ s.Governs path e :=
  ⟨governs_of_perm same.symm, governs_of_perm same⟩

/-- The lookup is right in every order exactly if the path begins with the name of the entry that
governs the module and with no other name. -/
theorem lookupAgrees_perm_iff (distinct : (s.entries.map LogEntry.modules).Nodup) :
    (∀ t : LogSettings, t.entries.Perm s.entries → t.LookupAgrees path) ↔
      ∀ e ∈ s.entries, (e.Begins path ↔ s.Governs path e) := by
  constructor
  · intro agrees e mem
    constructor
    · intro begins
      -- the entry comes first in one of the orders
      obtain ⟨front, back, split⟩ := List.append_of_mem mem
      have same : (e :: (front ++ back)).Perm s.entries := split ▸ List.perm_middle.symm
      have first : (LogSettings.mk (e :: (front ++ back))).entryFor? path = some e :=
        entryFor?_eq_some_iff.mpr ⟨begins, [], front ++ back, rfl, List.forall_mem_nil _⟩
      exact (governs_perm_iff same).mp ((agrees ⟨_⟩ same e).mp first)
    · intro governs
      exact (entryFor?_eq_some_iff.mp ((agrees s (.refl _) e).mpr governs)).1
  · intro exact t same e
    rw [governs_perm_iff same]
    constructor
    · intro found
      obtain ⟨begins, front, back, split, -⟩ := entryFor?_eq_some_iff.mp found
      have mem : e ∈ t.entries := by simp [split]
      exact (exact e (same.mem_iff.mp mem)).mp begins
    · intro governs
      cases found : t.entryFor? path with
      | none =>
        have begins := (exact e governs.mem).mpr governs
        exact absurd begins (entryFor?_eq_none_iff.mp found e (same.mem_iff.mpr governs.mem))
      | some f =>
        obtain ⟨begins, front, back, split, -⟩ := entryFor?_eq_some_iff.mp found
        have mem : f ∈ t.entries := by simp [split]
        rw [((exact f (same.mem_iff.mp mem)).mp begins).unique distinct governs]

/-- Messages go to the entry that governs their module, in every order of the entries. The lookup
agrees exactly if the path begins with the name of this entry and with none in front of it; where
no entry governs the module, exactly if it begins with no name. It agrees in every order exactly if
the path begins with the name of this entry and with no other. -/
theorem entryFor?_of_route {σ : Type} {w : Workspace (StateM σ)} {output : String}
    {found left : σ} {l : LogLayout} {route : LogRouting} (specific : route.IsMostSpecific)
    (built : (LogLayout.build w output s).run found = (.ok l, left)) (path : String) :
    (∀ e ∈ s.entries, (e.appender ∈ route l path ↔ s.Governs path e)) ∧
    (∀ e, s.Governs path e → (s.LookupAgrees path ↔
      e.Begins path ∧ ∃ front back, s.entries = front ++ e :: back ∧
        ∀ f ∈ front, ¬ f.Begins path)) ∧
    ((∀ e, ¬ s.Governs path e) → (s.LookupAgrees path ↔ ∀ e ∈ s.entries, ¬ e.Begins path)) ∧
    ((∀ t : LogSettings, t.entries.Perm s.entries → t.LookupAgrees path) ↔
      ∀ e ∈ s.entries, (e.Begins path ↔ s.Governs path e)) := by
  obtain ⟨rfl, consistent⟩ := LogLayout.of_build_eq_ok built
  have distinct := LogLayout.nodup_of_isConsistent consistent
  refine ⟨fun e mem => ?_, fun e governs => ?_, fun nothing => ?_, lookupAgrees_perm_iff distinct⟩
  · constructor
    · exact governs_of_mem_route specific consistent mem
    · intro governs
      rw [route_of_governs specific consistent governs]
      exact List.mem_singleton_self _
  · rw [← entryFor?_eq_some_iff]
    constructor
    · exact fun agrees => (agrees e).mpr governs
    · intro found f
      rw [found, Option.some.injEq]
      exact ⟨fun same => same ▸ governs, fun governs' => governs.unique distinct governs'⟩
  · rw [← entryFor?_eq_none_iff]
    constructor
    · intro agrees
      cases found : s.entryFor? path with
      | none => rfl
      | some e => exact absurd ((agrees e).mp found) (nothing e)
    · intro found e
      rw [found]
      exact iff_of_false nofun (nothing e)

end LogSettings

/-! ## Settings -/

namespace LogRouting

/-- The routing that looks for the longest name. -/
def byLength : LogRouting := fun l path =>
  match (l.loggers.filter fun g => isWithin path g.modules).argmax (·.modules.length) with
  | some g => g.appenders
  | none => l.rootAppenders

theorem isMostSpecific_byLength : byLength.IsMostSpecific where
  module {l path g} consistent mem within longest _ := by
    have distinct : (l.loggers.map (·.modules)).Nodup := by
      simp only [LogLayout.isConsistent, Bool.and_eq_true, decide_eq_true_eq] at consistent
      exact consistent.1.2
    have mem_around : g ∈ l.loggers.filter fun g => isWithin path g.modules := by
      simp [mem, within]
    unfold byLength
    split
    · next h found =>
      obtain ⟨memH, withinH⟩ := List.mem_filter.mp (List.argmax_mem found)
      have le : g.modules.length ≤ h.modules.length :=
        List.le_of_mem_argmax (f := fun g : ModuleLogger => g.modules.length) mem_around found
      have named : h.modules = g.modules :=
        eq_of_isWithin withinH within (Nat.le_antisymm (longest h memH withinH) le)
      rw [List.inj_on_of_nodup_map distinct memH mem named]
    · next found =>
      rw [List.argmax_eq_none.mp found] at mem_around
      cases mem_around
  root {l path} _ outside := by
    have empty : (l.loggers.filter fun g => isWithin path g.modules) = [] := by
      simpa using outside
    rw [byLength, empty]
    rfl

end LogRouting

namespace Sample

def logEntry (modules : String) : LogEntry :=
  ⟨modules, "logs", modules ++ ".log", 1048576, 3, "info"⟩

/-- The root, a module, and a module in that one, in the order in which one would write them. -/
def logSettings : LogSettings := ⟨[logEntry "root", logEntry "app", logEntry "app::net"]⟩

/-- Messages of a module in `app::net` go to its entry, those of other modules go to the root. The
lookup finds `app` for a module in `app::net` and for a module whose name goes on after `app`, and
it finds nothing for a third one. -/
theorem lookups_astray : ∃ left,
    (LogLayout.build (FileTree.workspace []) "out" logSettings).run FileTree.empty =
      (.ok (.ofSettings logSettings), left) ∧
    ∀ route : LogRouting, route.IsMostSpecific →
      (route (.ofSettings logSettings) "app::net::tls" = ["app::net_appender"] ∧
        logSettings.entryFor? "app::net::tls" = some (logEntry "app")) ∧
      (route (.ofSettings logSettings) "application" = ["root_appender"] ∧
        logSettings.entryFor? "application" = some (logEntry "app")) ∧
      (route (.ofSettings logSettings) "other" = ["root_appender"] ∧
        logSettings.entryFor? "other" = none) := by
  have built : ((LogLayout.build (FileTree.workspace []) "out" logSettings).run
      FileTree.empty).1 = .ok (.ofSettings logSettings) := by decide +kernel
  refine ⟨_, Prod.ext built rfl, fun route specific => ⟨⟨?_, ?_⟩, ⟨?_, ?_⟩, ⟨?_, ?_⟩⟩⟩
  · exact LogSettings.route_of_governs (e := logEntry "app::net") specific (by decide)
      (.module (by simp [logSettings]) (by decide) (by decide) (by decide))
  · decide
  · exact LogSettings.route_of_governs (e := logEntry "root") specific (by decide)
      (.root (by simp [logSettings]) (by decide) (by decide))
  · decide
  · exact LogSettings.route_of_governs (e := logEntry "root") specific (by decide)
      (.root (by simp [logSettings]) (by decide) (by decide))
  · decide

/-- The same entries, the most specific first. -/
def orderedSettings : LogSettings := ⟨[logEntry "app::net", logEntry "app", logEntry "root"]⟩

/-- With the most specific entry in front, its messages are looked up where they go. -/
theorem lookup_of_ordered : ∃ left,
    (LogLayout.build (FileTree.workspace []) "out" orderedSettings).run FileTree.empty =
      (.ok (.ofSettings orderedSettings), left) ∧
    LogRouting.byLength.IsMostSpecific ∧
    (logEntry "app::net").appender ∈
      LogRouting.byLength (.ofSettings orderedSettings) "app::net::tls" ∧
    orderedSettings.LookupAgrees "app::net::tls" := by
  have built : ((LogLayout.build (FileTree.workspace []) "out" orderedSettings).run
      FileTree.empty).1 = .ok (.ofSettings orderedSettings) := by decide +kernel
  have governs : orderedSettings.Governs "app::net::tls" (logEntry "app::net") :=
    .module (by simp [orderedSettings]) (by decide) (by decide) (by decide)
  obtain ⟨goes, agrees, -, -⟩ := LogSettings.entryFor?_of_route
    LogRouting.isMostSpecific_byLength (Prod.ext built rfl) "app::net::tls"
  refine ⟨_, Prod.ext built rfl, LogRouting.isMostSpecific_byLength,
    (goes _ governs.mem).mpr governs, (agrees _ governs).mpr ⟨?_, [], _, rfl, ?_⟩⟩
  · exact List.isPrefixOf_iff_prefix.mp (by decide)
  · exact List.forall_mem_nil _

end Sample

end HostTrust
