/-
HostTrust.Yaml.Cursor — a place in the text of a YAML document, and the blanks
and comments between its parts.

Indentation carries meaning, so a place knows its column and line. In block
style a tab must not stand where indentation counts.
-/

namespace HostTrust.Yaml

/-- A place in a text: what follows it, and where it is. -/
structure Cursor where
  chars : List Char
  column : Nat
  line : Nat
  deriving Repr

/-- Whether a blank, a line end or the end of the text follows. -/
def endsWord : List Char → Bool
  | [] => true
  | c :: _ => c == ' ' || c == '\t' || c == '\n'

/-- Whether a mark of a document boundary follows: three dashes or dots by themselves. -/
def isMark : List Char → Bool
  | '-' :: '-' :: '-' :: rest => endsWord rest
  | '.' :: '.' :: '.' :: rest => endsWord rest
  | _ => false

namespace Cursor

def next (s : Cursor) : Cursor :=
  match s.chars with
  | [] => s
  | '\n' :: rest => ⟨rest, 0, s.line + 1⟩
  | _ :: rest => ⟨rest, s.column + 1, s.line⟩

def advance (s : Cursor) : Nat → Cursor
  | 0 => s
  | n + 1 => s.next.advance n

/-- The place where `rest`, an end of what follows, begins. -/
def upTo (s : Cursor) (rest : List Char) : Cursor :=
  s.advance (s.chars.length - rest.length)

/-- Whether the document ends here. -/
def stops (s : Cursor) : Bool := s.chars.isEmpty || (s.column == 0 && isMark s.chars)

/-- Whether an indicator stands here by itself. -/
def isIndicator (s : Cursor) (c : Char) : Bool :=
  match s.chars with
  | d :: rest => d == c && endsWord rest
  | [] => false

/-- Passes over blanks, line ends and comments. -/
def skipFrom (flow tabs comment : Bool) (column line : Nat) : List Char → Cursor
  | [] => ⟨[], column, line⟩
  | c :: rest =>
    if c = '\n' then skipFrom flow flow false 0 (line + 1) rest
    else if comment ∨ c = ' ' ∨ (c = '\t' ∧ tabs) then
      skipFrom flow tabs comment (column + 1) line rest
    else if c = '#' then skipFrom flow tabs true (column + 1) line rest
    else ⟨c :: rest, column, line⟩

/-- The next place that is not blank. In flow style tabs are blank everywhere, in block style
only up to the end of the line, and only if `tabs` says so. -/
def skip (s : Cursor) (flow tabs : Bool) : Cursor :=
  skipFrom flow (flow || tabs) false s.column s.line s.chars

end Cursor

end HostTrust.Yaml
