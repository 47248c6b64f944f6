/-
HostTrust.Certificate.Pem — binary data between boundary lines.

A block is a line that begins it and names what it holds, lines of base 64, and
a line that ends it under the same name. Text between blocks is passed over.
Blanks at the ends of lines do not count. A blank line ends the headers of a
block; blocks with headers are refused, and after a blank line each line but
the last must have 64 characters.
-/
import HostTrust.Base64
import HostTrust.Text.Utf8

namespace HostTrust.Pem

/-- The contents of a block and its name. -/
structure Block where
  label : List Char
  content : Bytes
  deriving DecidableEq, Repr

/-- A line without what cannot be seen at its end. -/
def strip (line : List Char) : List Char :=
  (line.reverse.dropWhile fun c => c.toNat ≤ 0x20).reverse

/-- The lines of a text; `line` holds the line being read, the latest character first. -/
def linesFrom (line : List Char) : List Char → List (List Char)
  | [] => if line.isEmpty then [] else [line.reverse]
  | c :: rest => if c = '\n' then line.reverse :: linesFrom [] rest else linesFrom (c :: line) rest

/-- The lines of a text, without what cannot be seen at their ends. -/
def lines (cs : List Char) : List (List Char) := (linesFrom [] cs).map strip

def dashes : List Char := "-----".toList

def beginning : List Char := "-----BEGIN ".toList

def ending : List Char := "-----END ".toList

/-- The name in a line that begins a block. -/
def label? (line : List Char) : Option (List Char) :=
  let rest := line.drop beginning.length
  if beginning.isPrefixOf line && dashes.isSuffixOf rest then
    some (rest.take (rest.length - dashes.length))
  else none

/-- Bytes in base 64; blanks and the bits that no byte uses do not count. -/
def decodeBody (cs : List Char) : Option Bytes :=
  let visible := cs.filter fun c => 0x20 < c.toNat
  let digits := visible.takeWhile (· != '=')
  let fill := visible.dropWhile (· != '=')
  if visible.length % 4 = 0 ∧ fill.length ≤ 2 ∧ fill.all (· == '=') ∧ !visible.isEmpty then do
    let values ← digits.mapM Base64.value?
    let bits := values.foldl (fun n v => n * 64 + v) 0
    let size := digits.length * 6 / 8
    let spare := digits.length * 6 % 8
    some ((List.range size).map fun k =>
      UInt8.ofNat (bits >>> (spare + 8 * (size - 1 - k))))
  else none

/-- The lines of a block after the one that begins it: its body and the lines that follow. -/
def body (label : List Char) (afterBlank short : Bool) (before : List (List Char)) :
    List (List Char) → Option (List Char × List (List Char))
  | [] => none
  | line :: rest =>
    if line.isEmpty then
      if afterBlank || !before.isEmpty then none else body label true short before rest
    else if ending.isPrefixOf line then
      if line.drop ending.length = label ++ dashes then
        some (before.reverse.flatten, rest)
      else none
    else if short then none
    else if afterBlank && 64 < line.length then none
    else if !afterBlank && line.contains ':' then none
    else body label afterBlank (afterBlank && line.length < 64) (line :: before) rest

/-- The first block of a text and the lines after it. Nothing at all if no block begins;
no block if the first one is not well formed. -/
def next? : List (List Char) → Option (Option (Block × List (List Char)))
  | [] => none
  | line :: rest =>
    match label? line with
    | none => next? rest
    | some label =>
      some <| do
        let (chars, rest) ← body label false false [] rest
        let content ← decodeBody chars
        some (⟨label, content⟩, rest)

/-- The blocks of a text, and whether all of it is well formed. -/
def blocksFrom : (steps : Nat) → List (List Char) → List Block × Bool
  | 0, _ => ([], true)
  | steps + 1, ls =>
    match next? ls with
    | none => ([], true)
    | some none => ([], false)
    | some (some (b, rest)) =>
      let (bs, good) := blocksFrom steps rest
      (b :: bs, good)

/-- The blocks of a text up to the first that is not well formed, and whether there is none. -/
def blocks (s : String) : List Block × Bool :=
  let ls := lines s.toList
  blocksFrom ls.length ls

end HostTrust.Pem
