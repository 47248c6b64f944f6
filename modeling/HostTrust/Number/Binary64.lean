/-
HostTrust.Number.Binary64 — finite binary floating point numbers of 64 bits,
computed exactly.

A number is a sign, a significand below 2^53 and a power of two from -1074 to
971, in the one form with the greatest significand. Products and quotients are
taken in whole numbers and rounded once, to the nearest number, a tie going to
the even significand; a result out of range is `none`.

`decimal` gives the fewest decimal digits that round back to the number, and
of those the nearest. The grid of one digit is tried first, then two, and so
on; on each grid only the two neighbours of the number can be hits.
-/

namespace HostTrust.Number

/-- The forms that occur: all 53 bits in use, or the least power of two. -/
def IsCanonical (significand : Nat) (exponent : Int) : Prop :=
  significand < Nat.pow 2 53 ∧ -1074 ≤ exponent ∧ exponent ≤ 971 ∧
    (Nat.pow 2 52 ≤ significand ∨ exponent = -1074)

instance (significand : Nat) (exponent : Int) : Decidable (IsCanonical significand exponent) :=
  inferInstanceAs (Decidable (_ ∧ _))

/-- The number ±`significand` · 2^`exponent`. -/
structure Binary64 where
  negative : Bool
  significand : Nat
  exponent : Int
  canonical : IsCanonical significand exponent
  deriving DecidableEq, Repr

namespace Binary64

/-- The number in canonical form, or nothing if its parts are out of range. -/
def make? (negative : Bool) (significand : Nat) (exponent : Int) : Option Binary64 :=
  if h : IsCanonical significand exponent then some ⟨negative, significand, exponent, h⟩ else none

/-- Zero with a sign. -/
def zero (negative : Bool) : Binary64 := ⟨negative, 0, -1074, by decide⟩

def isZero (x : Binary64) : Bool := x.significand == 0

/-- The number with the other sign. -/
def neg (x : Binary64) : Binary64 := { x with negative := !x.negative }

/-! ## Rounding -/

/-- The power of two that is largest below a positive quotient. -/
def binade (num den : Nat) : Int :=
  let k : Int := (num.log2 : Int) - den.log2
  if num * Nat.pow 2 (-k).toNat < den * Nat.pow 2 k.toNat then k - 1 else k

/-- The whole number nearest to a quotient; a tie goes to the even one. -/
def roundHalfEven (num den : Nat) : Nat :=
  let q := num / den
  let r := num % den
  if 2 * r < den ∨ (2 * r = den ∧ q % 2 = 0) then q else q + 1

/-- The number nearest to ±`num` / `den`, if it is in range. -/
def round (negative : Bool) (num den : Nat) : Option Binary64 :=
  if num = 0 then some (zero negative)
  else
    let e := max (binade num den - 52) (-1074)
    let m := roundHalfEven (num * Nat.pow 2 (-e).toNat) (den * Nat.pow 2 e.toNat)
    if m = Nat.pow 2 53 then make? negative (Nat.pow 2 52) (e + 1) else make? negative m e

/-- The number nearest to a natural number. -/
def ofNat? (n : Nat) : Option Binary64 := round false n 1

/-- The rounded product. -/
def mul (x y : Binary64) : Option Binary64 :=
  let e := x.exponent + y.exponent
  round (x.negative != y.negative) (x.significand * y.significand * Nat.pow 2 e.toNat)
    (Nat.pow 2 (-e).toNat)

/-- The rounded quotient by a number that is not zero. -/
def div (x y : Binary64) : Option Binary64 :=
  let e := x.exponent - y.exponent
  round (x.negative != y.negative) (x.significand * Nat.pow 2 e.toNat)
    (y.significand * Nat.pow 2 (-e).toNat)

/-! ## The shortest decimal form -/

/-- A positive number `0.d₁d₂… · 10^scale`. -/
structure Decimal where
  digits : List Char
  scale : Int
  deriving DecidableEq, Repr

/-- The reals that round to a positive number, over a common denominator `unit`. -/
structure Interval where
  low : Nat
  value : Nat
  high : Nat
  unit : Nat
  /-- Whether the ends belong to it. -/
  closed : Bool

/-- The reals that round to the number: half way to its neighbours on both sides. -/
def interval (x : Binary64) : Interval :=
  let e := x.exponent - 2
  let up := Nat.pow 2 e.toNat
  let below := if x.significand = Nat.pow 2 52 ∧ x.exponent ≠ -1074 then 1 else 2
  ⟨(4 * x.significand - below) * up, 4 * x.significand * up, (4 * x.significand + 2) * up,
    Nat.pow 2 (-e).toNat, x.significand % 2 == 0⟩

/-- Whether `n` · 10^`power` lies in the interval. -/
def Interval.holds (i : Interval) (n : Nat) (power : Int) : Bool :=
  let p := n * Nat.pow 10 power.toNat * i.unit
  let up := Nat.pow 10 (-power).toNat
  if i.closed then i.low * up ≤ p && p ≤ i.high * up else i.low * up < p && p < i.high * up

/-- The least power of ten above a positive quotient. -/
def magnitude (num den : Nat) : Int :=
  if den ≤ num then (Nat.toDigits 10 (num / den)).length
  else
    let zeros := (Nat.toDigits 10 ((den - 1) / num)).length
    1 - (zeros : Int)

/-- The neighbour of the value on the grid of 10^`power` that is in the interval, if any;
of two, the nearer one, and the even one of two equally near. -/
def Interval.nearest? (i : Interval) (power : Int) : Option Nat :=
  let num := i.value * Nat.pow 10 (-power).toNat
  let den := i.unit * Nat.pow 10 power.toNat
  let n := num / den
  match i.holds n power, i.holds (n + 1) power with
  | true, true => some (roundHalfEven num den)
  | true, false => some n
  | false, true => some (n + 1)
  | false, false => none

/-- Searches the grids of `count`, `count + 1`, … digits. -/
def Interval.shortestFrom (i : Interval) (scale : Int) : (more : Nat) → (count : Nat) → Decimal
  | 0, _ => ⟨['0'], 0⟩
  | more + 1, count =>
    match i.nearest? (scale - count) with
    | some n =>
      let written := Nat.toDigits 10 n
      ⟨(written.reverse.dropWhile (· == '0')).reverse, scale - count + written.length⟩
    | none => i.shortestFrom scale more (count + 1)

/-- The fewest digits that round back to a number other than zero. -/
def decimal (x : Binary64) : Decimal :=
  let i := x.interval
  i.shortestFrom (magnitude i.value i.unit) 17 1

end Binary64

end HostTrust.Number
