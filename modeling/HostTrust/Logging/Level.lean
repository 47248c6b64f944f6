/-
HostTrust.Logging.Level — how much is logged.
-/
import HostTrust.Text.Letter

namespace HostTrust

/-- The least important messages that are logged. -/
inductive LogLevel where
  | off
  | error
  | warn
  | info
  | debug
  | trace
  deriving DecidableEq, Repr

namespace LogLevel

def all : List LogLevel := [.off, .error, .warn, .info, .debug, .trace]

/-- A level logs what every lower one logs. -/
def rank : LogLevel → Nat
  | .off => 0
  | .error => 1
  | .warn => 2
  | .info => 3
  | .debug => 4
  | .trace => 5

def name : LogLevel → String
  | .off => "OFF"
  | .error => "ERROR"
  | .warn => "WARN"
  | .info => "INFO"
  | .debug => "DEBUG"
  | .trace => "TRACE"

/-- The level that a word names in capital or small letters; `info` if it names none. -/
def ofText (s : String) : LogLevel :=
  match Text.lower s with
  | "trace" => .trace
  | "debug" => .debug
  | "warn" => .warn
  | "error" => .error
  | "off" => .off
  | _ => .info

/-- The level that logs more. -/
def max (a b : LogLevel) : LogLevel := if a.rank < b.rank then b else a

end LogLevel

end HostTrust
