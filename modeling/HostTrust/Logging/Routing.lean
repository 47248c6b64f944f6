/-
HostTrust.Logging.Routing — where the messages of a module go.

A layout only says which loggers there are. What hands messages on by it is not
part of this program, but the rule that it goes by is known: of the loggers that
are for the module of a message or for one around it, the one for the most
specific module counts, and where there is none the root does. Whether a message
is important enough is another matter.
-/
import HostTrust.Logging.Layout

namespace HostTrust

/-- Whether a module is a certain one or lies in it. Two colons stand between the names in a
path. -/
def isWithin (path around : String) : Bool :=
  path == around || (around.toList ++ "::".toList).isPrefixOf path.toList

/-- The appenders that the messages of a module go to, in each layout. -/
abbrev LogRouting := LogLayout → String → List String

namespace LogRouting

/-- The rule by which messages are handed on, as far as loggers keep them to themselves. -/
structure IsMostSpecific (route : LogRouting) : Prop where
  module {l : LogLayout} {path : String} {g : ModuleLogger} : l.isConsistent = true →
    g ∈ l.loggers → isWithin path g.modules = true →
    (∀ other ∈ l.loggers, isWithin path other.modules = true →
      other.modules.length ≤ g.modules.length) →
    g.additive = false → route l path = g.appenders
  root {l : LogLayout} {path : String} : l.isConsistent = true →
    (∀ g ∈ l.loggers, isWithin path g.modules = false) → route l path = l.rootAppenders

end LogRouting

namespace LogEntry

/-- The path begins with the name of the entry, letter by letter. -/
def Begins (e : LogEntry) (path : String) : Prop := e.modules.toList <+: path.toList

end LogEntry

namespace LogSettings

/-- The entry is the one for a module: the most specific of those that name it or a module around
it, or else the entry for all modules. -/
inductive Governs (s : LogSettings) (path : String) : LogEntry → Prop where
  | module {e : LogEntry} : e ∈ s.entries → e.isRoot = false → isWithin path e.modules = true →
    (∀ other ∈ s.entries, other.isRoot = false → isWithin path other.modules = true →
      other.modules.length ≤ e.modules.length) → Governs s path e
  | root {e : LogEntry} : e ∈ s.entries → e.isRoot = true →
    (∀ other ∈ s.entries, other.isRoot = false → isWithin path other.modules = false) →
    Governs s path e

end LogSettings

end HostTrust
