/-
HostTrust.Certificate.CalendarTime — moments in the calendar, as certificates
give the bounds of their validity.

Years run from 0 to 9999 in the Gregorian calendar, extended to all of them. A
moment is compared with others through its distance from the start of 1970 in
seconds.
-/
import HostTrust.Text.Utf8

namespace HostTrust

def isLeapYear (y : Nat) : Bool := y % 4 == 0 && (y % 100 != 0 || y % 400 == 0)

/-- The days of a month, which counts from one. -/
def daysInMonth (y m : Nat) : Nat :=
  match m with
  | 2 => if isLeapYear y then 29 else 28
  | 4 | 6 | 9 | 11 => 30
  | _ => 31

/-- A second of the calendar. -/
structure CalendarTime where
  year : Nat
  month : Nat
  day : Nat
  hour : Nat
  minute : Nat
  second : Nat
  deriving DecidableEq, Repr

namespace CalendarTime

/-- Whether the parts name a second of the calendar. -/
def isValid (t : CalendarTime) : Bool :=
  t.year ≤ 9999 && 1 ≤ t.month && t.month ≤ 12 && 1 ≤ t.day &&
    t.day ≤ daysInMonth t.year t.month && t.hour ≤ 23 && t.minute ≤ 59 && t.second ≤ 59

/-- The days of the years before a year. -/
def daysBeforeYear : Nat → Nat
  | 0 => 0
  | y + 1 => 365 * (y + 1) + y / 4 - y / 100 + y / 400 + 1

/-- The days of the months before a month. -/
def daysBeforeMonth (y m : Nat) : Nat :=
  (List.range (m - 1)).foldl (fun days k => days + daysInMonth y (k + 1)) 0

/-- The days from the start of year 0 to the start of 1970. -/
def daysBefore1970 : Nat := 719528

/-- The seconds since the start of 1970. -/
def toUnix (t : CalendarTime) : Int :=
  let days := daysBeforeYear t.year + daysBeforeMonth t.year t.month + (t.day - 1)
  ((days : Int) - daysBefore1970) * 86400 + (t.hour * 3600 + t.minute * 60 + t.second : Nat)

/-- The first second of year 0. -/
def leastUnix : Int := -62167219200

/-- The last second of year 9999. -/
def greatestUnix : Int := 253402300799

/-- The number that digits write. -/
def number? (digits : List Char) : Option Nat :=
  if digits.all fun c => '0' ≤ c && c ≤ '9' then
    some (digits.foldl (fun n c => n * 10 + (c.toNat - 48)) 0)
  else none

/-- A moment of a year, given as two digits each of month, day, hour, minute and second. -/
def ofDigits? (year : Nat) (cs : List Char) : Option CalendarTime := do
  let month ← number? (cs.take 2)
  let day ← number? ((cs.drop 2).take 2)
  let hour ← number? ((cs.drop 4).take 2)
  let minute ← number? ((cs.drop 6).take 2)
  let second ← number? ((cs.drop 8).take 2)
  let t : CalendarTime := ⟨year, month, day, hour, minute, second⟩
  if cs.length = 11 ∧ cs.getLast? = some 'Z' ∧ t.isValid then some t else none

/-- The short form gives two digits of the year; they mean a year from 1950 to 2049. -/
def ofShort? (cs : List Char) : Option CalendarTime := do
  let y ← number? (cs.take 2)
  ofDigits? (if y < 50 then 2000 + y else 1900 + y) (cs.drop 2)

/-- The long form gives all four digits of the year. -/
def ofLong? (cs : List Char) : Option CalendarTime := do
  let y ← number? (cs.take 4)
  ofDigits? y (cs.drop 4)

def monthNames : List String :=
  ["Jan", "Feb", "Mar", "Apr", "May", "Jun", "Jul", "Aug", "Sep", "Oct", "Nov", "Dec"]

/-- A number in at least `width` characters, filled up in front. -/
def padded (fill : Char) (width n : Nat) : String :=
  let digits := Nat.toDigits 10 n
  String.ofList (List.replicate (width - digits.length) fill ++ digits)

/-- The moment as messages show it: `Mar  5 06:07:08 2015 GMT`. -/
def display (t : CalendarTime) : String :=
  monthNames.getD (t.month - 1) "" ++ " " ++ padded ' ' 2 t.day ++ " " ++ padded '0' 2 t.hour ++
    ":" ++ padded '0' 2 t.minute ++ ":" ++ padded '0' 2 t.second ++ " " ++ toString t.year ++ " GMT"

end CalendarTime

end HostTrust
