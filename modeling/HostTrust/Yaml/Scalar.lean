/-
HostTrust.Yaml.Scalar — the texts of scalars.

A plain scalar ends where an indicator begins, and may go on over lines that
are indented further. A quoted scalar ends at its quote. In both, a line end
counts as one blank, and more line ends count as all of them but one. A block
scalar holds lines, literally or folded.
-/
import HostTrust.Yaml.Cursor

namespace HostTrust.Yaml

/-- What a run of blanks with `breaks` line ends stands for. -/
def folded (breaks : Nat) : List Char :=
  if breaks = 1 then [' '] else List.replicate (breaks - 1) '\n'

def isSpace (c : Char) : Bool := c == ' ' || c == '\t'

/-! ## Plain scalars -/

/-- The signs that structure flow style. -/
def isFlowSign (c : Char) : Bool := [',', '[', ']', '\x7b', '\x7d'].contains c

/-- The signs that no plain scalar begins with. -/
def isIndicator (c : Char) : Bool :=
  ['#', '&', '*', '!', '|', '>', '\'', '"', '%', '@', '\x60'].contains c

/-- Whether a plain scalar may begin with these characters. -/
def beginsPlain (flow : Bool) : List Char → Bool
  | [] => false
  | c :: rest =>
    if c = '-' then !endsWord rest
    else if c = '?' ∨ c = ':' then !flow && !endsWord rest
    else !endsWord [c] && !isFlowSign c && !isIndicator c

/-- The characters of a plain scalar on one line. In flow style a colon must not stand
directly before a sign of structure. -/
def plainLine (flow : Bool) : List Char → Option (List Char)
  | [] => some []
  | c :: rest =>
    if flow && c == ':' && rest.head?.any (fun d => isFlowSign d || d == '?') then none
    else if c = '\n' ∨ (c = ':' ∧ endsWord rest) ∨ (flow ∧ isFlowSign c) ∨
        (isSpace c ∧ rest.head? = some '#') then some []
    else (plainLine flow rest).map (c :: ·)

/-- A plain scalar, inside of a block at column `indent`. -/
def plain (flow : Bool) (indent : Int) : Nat → Cursor → Option (List Char × Cursor)
  | 0, _ => none
  | fuel + 1, s => do
    let line ← plainLine flow s.chars
    let text := (line.reverse.dropWhile isSpace).reverse
    let after := s.advance text.length
    let gap := after.chars.takeWhile fun c => isSpace c || c == '\n'
    let next := after.advance gap.length
    let breaks := gap.count '\n'
    let indentation := (gap.reverse.takeWhile (· != '\n')).reverse
    let goesOn := breaks ≠ 0 ∧ ¬ next.stops ∧ next.chars.head? ≠ some '#' ∧
      (flow ∨ indent < next.column)
    if goesOn then
      if !flow && (indentation.takeWhile (· != '\t')).length < indentation.length &&
          ((indentation.takeWhile (· != '\t')).length : Int) ≤ indent then none
      let (more, last) ← plain flow indent fuel next
      if more.isEmpty then some (text, after) else some (text ++ folded breaks ++ more, last)
    else some (text, after)

/-! ## Quoted scalars -/

/-- The character that digits to the base 16 name, if it is one. -/
def named (count : Nat) (cs : List Char) : Option (Char × List Char) := do
  let digits := cs.take count
  if digits.length < count then none
  let n ← digits.foldlM (fun n c =>
    if '0' ≤ c ∧ c ≤ '9' then some (n * 16 + (c.toNat - 48))
    else if 'a' ≤ c ∧ c ≤ 'f' then some (n * 16 + (c.toNat - 87))
    else if 'A' ≤ c ∧ c ≤ 'F' then some (n * 16 + (c.toNat - 55))
    else none) 0
  if n < 0xD800 ∨ (0xDFFF < n ∧ n ≤ 0x10FFFF) then some (Char.ofNat n, cs.drop count) else none

/-- The character that an escape stands for. -/
def escape? : List Char → Option (Char × List Char)
  | [] => none
  | c :: rest =>
    match c with
    | '0' => some ('\x00', rest)
    | 'a' => some ('\x07', rest)
    | 'b' => some ('\x08', rest)
    | 't' | '\t' => some ('\t', rest)
    | 'n' => some ('\n', rest)
    | 'v' => some ('\x0b', rest)
    | 'f' => some ('\x0c', rest)
    | 'r' => some ('\r', rest)
    | 'e' => some ('\x1b', rest)
    | ' ' | '"' | '/' | '\\' => some (c, rest)
    | 'N' => some ('\u0085', rest)
    | '_' => some ('\u00a0', rest)
    | 'L' => some ('\u2028', rest)
    | 'P' => some ('\u2029', rest)
    | 'x' => named 2 rest
    | 'u' => named 4 rest
    | 'U' => named 8 rest
    | _ => none

/-- The text up to the closing quote, and what follows the quote. -/
def quoted (quote : Char) : Nat → List Char → Option (List Char × List Char)
  | 0, _ | _, [] => none
  | fuel + 1, c :: rest =>
    if c = quote then
      match quote, rest with
      | '\'', '\'' :: rest => do
        let (text, last) ← quoted quote fuel rest
        some ('\'' :: text, last)
      | _, _ => some ([], rest)
    else if isSpace c ∨ c = '\n' then do
      let gap := (c :: rest).takeWhile fun c => isSpace c || c == '\n'
      let after := (c :: rest).drop gap.length
      if gap.getLast? = some '\n' ∧ isMark after then none
      let (text, last) ← quoted quote fuel after
      some ((if gap.contains '\n' then folded (gap.count '\n') else gap) ++ text, last)
    else if c = '\\' ∧ quote = '"' then
      match rest with
      | '\n' :: rest => do
        let gap := rest.takeWhile fun c => isSpace c || c == '\n'
        let (text, last) ← quoted quote fuel (rest.drop gap.length)
        some (List.replicate (gap.count '\n') '\n' ++ text, last)
      | rest => do
        let (d, after) ← escape? rest
        let (text, last) ← quoted quote fuel after
        some (d :: text, last)
    else do
      let (text, last) ← quoted quote fuel rest
      some (c :: text, last)

/-! ## Block scalars -/

/-- What happens to the line ends at the end of a block scalar. -/
inductive Chomping where
  | strip
  | clip
  | keep
  deriving DecidableEq, Repr

/-- A digit that tells how far lines are indented, if one follows. -/
def indentDigit : List Char → Option Nat × List Char
  | d :: rest => if '1' ≤ d ∧ d ≤ '9' then (some (d.toNat - 48), rest) else (none, d :: rest)
  | [] => (none, [])

/-- A sign that tells how to chomp, if one follows. -/
def chompingSign : List Char → Chomping × List Char
  | '-' :: rest => (.strip, rest)
  | '+' :: rest => (.keep, rest)
  | rest => (.clip, rest)

/-- The signs after the indicator, in any order. -/
def header (cs : List Char) : Chomping × Option Nat × List Char :=
  match chompingSign cs with
  | (.clip, _) =>
    let (indent, rest) := indentDigit cs
    let (chomping, rest) := chompingSign rest
    (chomping, indent, rest)
  | (chomping, rest) =>
    let (indent, rest) := indentDigit rest
    (chomping, indent, rest)

/-- The lines of a text, each with whether a line end follows. -/
def lines : List Char → List (List Char × Bool)
  | [] => []
  | '\n' :: rest => ([], true) :: lines rest
  | c :: rest =>
    match lines rest with
    | [] => [([c], false)]
    | (line, ends) :: more => (c :: line, ends) :: more

/-- The number of spaces in front. -/
def spaces (line : List Char) : Nat := (line.takeWhile (· == ' ')).length

/-- The columns by which the lines of a block scalar are indented, if they tell it. -/
def detectedIndent (deepest : Nat) : List (List Char × Bool) → Option Nat
  | [] => some deepest
  | (line, _) :: rest =>
    let n := spaces line
    match line.drop n with
    | [] => detectedIndent (max deepest n) rest
    | '\t' :: _ => none
    | _ => some (max deepest n)

/-- The lines of a block scalar, without their indentation. Lines that are too short to be
indented are empty. -/
def blockLines (indent : Nat) : List (List Char × Bool) → Option (List (List Char × Bool))
  | [] => some []
  | (line, ends) :: rest =>
    let n := spaces line
    if n < indent then
      match line.drop n with
      | [] => if ends then (blockLines indent rest).map (([], true) :: ·) else some []
      | '\t' :: _ => none
      | _ => some []
    else (blockLines indent rest).map ((line.drop indent, ends) :: ·)

/-- The text of folded lines. `held` counts the line ends since the last line with text, and
`blank` tells whether that line began with a blank. -/
def foldLines (literal : Bool) (held : Nat) (blank first : Bool) :
    List (List Char × Bool) → List Char × Nat
  | [] => ([], held)
  | ([], _) :: rest => foldLines literal (held + 1) blank first rest
  | (line, ends) :: rest =>
    let begins := line.head?.any isSpace
    let gap :=
      if first || literal || blank || begins then List.replicate held '\n' else folded held
    let (text, tail) := foldLines literal (if ends then 1 else 0) begins false rest
    (gap ++ line ++ text, tail)

/-- A block scalar, inside of a block at column `indent`; the place is after the indicator. -/
def blockScalar (literal : Bool) (indent : Int) (s : Cursor) : Option (List Char × Cursor) := do
  let (chomping, given, rest) := header s.chars
  let rest := rest.dropWhile isSpace
  let rest := if rest.head? = some '#' then rest.dropWhile (· != '\n') else rest
  if !(rest.isEmpty || rest.head? == some '\n') then none
  let body := (s.upTo rest).next
  let all := lines body.chars
  let columns ← match given with
    | some n => some (indent.toNat + n)
    | none => (detectedIndent 0 all).map fun n => max n (max 1 (indent + 1).toNat)
  let mine ← blockLines columns all
  let (text, tail) := foldLines literal 0 false true mine
  let kept := match chomping with
    | .strip => 0
    | .clip => if text.isEmpty then 0 else min tail 1
    | .keep => tail
  let size := (all.take mine.length).foldl
    (fun size l => size + l.1.length + (if l.2 then 1 else 0)) 0
  some (text ++ List.replicate kept '\n', body.advance size)

end HostTrust.Yaml
