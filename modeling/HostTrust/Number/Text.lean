/-
HostTrust.Number.Text — how a floating point number is written and read as text.

Writing: the fewest digits that read back; a point and at least one digit
after it when the power of ten of the first digit is from -5 to 15, otherwise
one digit before the point and a signed exponent (`format`).

Reading: digits are collected into a word of 64 bits. Digits of the whole part
that do not fit only raise the power of ten, digits after the point that do
not fit are dropped. The word is rounded to a binary number and then multiplied
or divided by a power of ten, each step rounded once. A number that stays whole
and fits a word is an integer; `-0` is not one.
-/
import HostTrust.Number.Binary64
import HostTrust.Text.Utf8

namespace HostTrust.Number

/-! ## Writing -/

/-- The bounds of the notation without an exponent, as powers of ten of the first digit. -/
structure FloatFormat where
  leastPositional : Int
  greatestPositional : Int

/-- From 0.00001 up to below 10^16 no exponent is written. -/
def format : FloatFormat := ⟨-5, 15⟩

/-- Digits around a point, the first of them at the power of ten `top`. -/
def positional (digits : List Char) (top : Int) : List Char :=
  let zeros (n : Int) : List Char := List.replicate n.toNat '0'
  if top < 0 then '0' :: '.' :: zeros (-top - 1) ++ digits
  else
    let whole := digits ++ zeros (top + 1 - digits.length)
    let count := (top + 1).toNat
    let fraction := whole.drop count
    whole.take count ++ '.' :: (if fraction.isEmpty then ['0'] else fraction)

/-- One digit before the point, and the power of ten as a signed exponent. -/
def scientific (digits : List Char) (top : Int) : List Char :=
  let tail := digits.drop 1
  digits.take 1 ++ (if tail.isEmpty then [] else '.' :: tail) ++
    'e' :: (if top < 0 then '-' else '+') :: Nat.toDigits 10 top.natAbs

/-- The text of a number. -/
def Binary64.chars (x : Binary64) : List Char :=
  let sign := if x.negative then ['-'] else []
  if x.isZero then sign ++ ['0', '.', '0']
  else
    let d := x.decimal
    let top := d.scale - 1
    sign ++
      (if format.leastPositional ≤ top ∧ top ≤ format.greatestPositional then
        positional d.digits top
      else scientific d.digits top)

/-! ## Reading -/

/-- A number as a text may give it. -/
inductive Numeral where
  | int (n : Int)
  | float (x : Binary64)
  deriving DecidableEq, Repr

/-- The text of a number. -/
def Numeral.chars : Numeral → List Char
  | .int n => (if n < 0 then ['-'] else []) ++ Nat.toDigits 10 n.natAbs
  | .float x => x.chars

/-- The greatest number that the reader keeps exact. -/
def wordMax : Nat := Nat.pow 2 64 - 1

/-- The greatest exponent that the reader adds up. -/
def exponentMax : Nat := Nat.pow 2 31 - 1

/-- What is found where a number should stand. -/
inductive Reading where
  /-- A number in range, or a well-formed number that is out of range. -/
  | number (n : Option Numeral)
  /-- No number. -/
  | malformed
  deriving DecidableEq, Repr

def digitValue? (l : Text.Letter) : Option Nat :=
  match l with
  | some c => if '0' ≤ c ∧ c ≤ '9' then some (c.toNat - 48) else none
  | none => none

/-- Collects digits while they fit a word; gives the word, the number of digits taken
and the rest of the input. -/
def collect (word taken : Nat) : List Text.Letter → Nat × Nat × List Text.Letter
  | [] => (word, taken, [])
  | l :: rest =>
    match digitValue? l with
    | none => (word, taken, l :: rest)
    | some d =>
      if word * 10 + d ≤ wordMax then collect (word * 10 + d) (taken + 1) rest
      else (word, taken, l :: rest)

/-- Skips digits; gives their number and the rest of the input. -/
def skipDigits (skipped : Nat) : List Text.Letter → Nat × List Text.Letter
  | [] => (skipped, [])
  | l :: rest =>
    match digitValue? l with
    | none => (skipped, l :: rest)
    | some _ => skipDigits (skipped + 1) rest

/-- The value of the digits of an exponent; none when it is too great to be added up. -/
def exponentValue (value : Nat) : List Text.Letter → Option Nat × List Text.Letter
  | [] => (some value, [])
  | l :: rest =>
    match digitValue? l with
    | none => (some value, l :: rest)
    | some d =>
      if value * 10 + d ≤ exponentMax then exponentValue (value * 10 + d) rest
      else (none, (skipDigits 0 rest).2)

/-- A number divided by 10^308 as long as the power of ten is below -308. -/
def scaleDown : (steps : Nat) → Binary64 → Int → Option Binary64
  | 0, x, _ => some (Binary64.zero x.negative)
  | steps + 1, x, power =>
    if x.isZero then some x
    else if -308 ≤ power then do x.div (← Binary64.ofNat? (Nat.pow 10 power.natAbs))
    else do scaleDown steps (← x.div (← Binary64.ofNat? (Nat.pow 10 308))) (power + 308)

/-- The number `word` · 10^`power`, rounded at each step; none when out of range. -/
def scaled (word : Nat) (power : Int) : Option Binary64 := do
  let x ← Binary64.ofNat? word
  if power ≤ 308 then
    if 0 ≤ power then x.mul (← Binary64.ofNat? (Nat.pow 10 power.toNat)) else scaleDown 4 x power
  else if x.isZero then some x
  else none

/-- A float with the sign that was read. -/
def signed (negative : Bool) (x : Option Binary64) : Reading :=
  .number (x.map fun x => .float (if negative then x.neg else x))

/-- Reads what follows the letter of an exponent. -/
def readExponent (negative : Bool) (word : Nat) (power : Int) (cs : List Text.Letter) :
    Reading × List Text.Letter :=
  let (down, digits) := match cs with
    | some '+' :: rest => (false, rest)
    | some '-' :: rest => (true, rest)
    | _ => (false, cs)
  match digits with
  | [] => (.malformed, [])
  | l :: rest =>
    match digitValue? l with
    | none => (.malformed, digits)
    | some d =>
      match exponentValue d rest with
      | (some e, after) =>
        let total := if down then max (power - e) (-2147483648) else min (power + e) 2147483647
        (signed negative (scaled word total), after)
      | (none, after) =>
        if word ≠ 0 ∧ !down then (.number none, after)
        else (signed negative (some (Binary64.zero false)), after)

/-- Reads an exponent, if one follows. -/
def readTail (negative : Bool) (word : Nat) (power : Int) (cs : List Text.Letter) :
    Reading × List Text.Letter :=
  match cs with
  | some 'e' :: rest => readExponent negative word power rest
  | some 'E' :: rest => readExponent negative word power rest
  | _ => (signed negative (scaled word power), cs)

/-- Reads what follows the point. -/
def readFraction (negative : Bool) (word : Nat) (power : Int) (cs : List Text.Letter) :
    Reading × List Text.Letter :=
  let (word, taken, rest) := collect word 0 cs
  let (skipped, rest) := skipDigits 0 rest
  if taken + skipped = 0 then (.malformed, rest)
  else readTail negative word (power - taken) rest

/-- Reads what follows the digits of the whole part; `excess` digits of it did not fit. -/
def readAfterWhole (negative : Bool) (word excess : Nat) (cs : List Text.Letter) :
    Reading × List Text.Letter :=
  match cs with
  | some '.' :: rest => readFraction negative word excess rest
  | some 'e' :: _ => readTail negative word excess cs
  | some 'E' :: _ => readTail negative word excess cs
  | _ =>
    if excess ≠ 0 then (signed negative (scaled word excess), cs)
    else if !negative then (.number (some (.int word)), cs)
    else if word = 0 ∨ Nat.pow 2 63 < word then (signed true (Binary64.ofNat? word), cs)
    else (.number (some (.int (-word))), cs)

/-- Reads the digits of a number whose sign is already read. -/
def readUnsigned (negative : Bool) (cs : List Text.Letter) : Reading × List Text.Letter :=
  match cs with
  | [] => (.malformed, [])
  | l :: rest =>
    match digitValue? l with
    | none => (.malformed, cs)
    | some 0 =>
      match rest.head?.bind digitValue? with
      | some _ => (.malformed, rest)
      | none => readAfterWhole negative 0 0 rest
    | some d =>
      let (word, _, rest) := collect d 0 rest
      let (excess, rest) := skipDigits 0 rest
      readAfterWhole negative word excess rest

/-- Reads a number at the start of the input. -/
def read (cs : List Text.Letter) : Reading × List Text.Letter :=
  match cs with
  | some '-' :: rest => readUnsigned true rest
  | _ => readUnsigned false cs

end HostTrust.Number
