/-
HostTrust.Proofs.Calendar — the calendar as a clock.

A clock that is set to the start of 1970 and ticks second by second, forth and
back, shows at each moment one second of the calendar (`CalendarTime.Shows`).
This says what the calendar is without counting days. The count agrees with it:
from the first second of year 0 to the last of year 9999, the clock shows
exactly the second whose distance from 1970 is the moment (`shows_iff`), and a
greater moment shows a later second (`Shows.lt_iff_lt`), the parts of a second
being compared from the year down.
-/
import HostTrust.Proofs.HostData
import Mathlib.Order.Monotone.Basic

namespace HostTrust

namespace CalendarTime

variable {t a b : CalendarTime} {time time' : Int}

/-! ## Seconds in order -/

/-- The parts of a second, the greatest first. -/
def parts (t : CalendarTime) : List Nat := [t.year, t.month, t.day, t.hour, t.minute, t.second]

/-- The greatest part that differs decides which second is earlier. -/
instance : LT CalendarTime := ⟨fun a b => a.parts < b.parts⟩

instance : LE CalendarTime := ⟨fun a b => ¬ b < a⟩

instance : DecidableLT CalendarTime := fun a b => inferInstanceAs (Decidable (a.parts < b.parts))

instance : DecidableLE CalendarTime := fun a b => inferInstanceAs (Decidable (¬ b < a))

theorem le_iff_not_lt : a ≤ b ↔ ¬ b < a := Iff.rfl

theorem lt_iff : a < b ↔ a.year < b.year ∨ a.year = b.year ∧ (a.month < b.month ∨
    a.month = b.month ∧ (a.day < b.day ∨ a.day = b.day ∧ (a.hour < b.hour ∨ a.hour = b.hour ∧
      (a.minute < b.minute ∨ a.minute = b.minute ∧ a.second < b.second)))) := by
  show a.parts < b.parts ↔ _
  simp [parts, List.cons_lt_cons_iff]

theorem lt_or_eq_or_lt (a b : CalendarTime) : a < b ∨ a = b ∨ b < a := by
  obtain ⟨y, mo, d, h, mi, s⟩ := a
  obtain ⟨y', mo', d', h', mi', s'⟩ := b
  simp only [lt_iff, mk.injEq]
  omega

theorem isValid_iff : t.isValid = true ↔ t.year ≤ 9999 ∧ (1 ≤ t.month ∧ t.month ≤ 12) ∧
    (1 ≤ t.day ∧ t.day ≤ daysInMonth t.year t.month) ∧
    t.hour ≤ 23 ∧ t.minute ≤ 59 ∧ t.second ≤ 59 := by
  simp [isValid, and_assoc]

/-! ## Days and seconds, counted -/

def daysInYear (y : Nat) : Nat := if isLeapYear y then 366 else 365

theorem isLeapYear_iff {y : Nat} :
    isLeapYear y = true ↔ y % 4 = 0 ∧ (y % 100 ≠ 0 ∨ y % 400 = 0) := by
  simp [isLeapYear]

/-- Of the quotients that count leap days, each grows exactly at its multiples. -/
theorem daysBeforeYear_succ (y : Nat) :
    daysBeforeYear (y + 1) = daysBeforeYear y + daysInYear y := by
  cases y with
  | zero => rfl
  | succ y =>
    simp only [daysBeforeYear, daysInYear]
    by_cases leap : isLeapYear (y + 1) = true
    · obtain ⟨four, century⟩ := isLeapYear_iff.mp leap
      have by4 : (y + 1) / 4 = y / 4 + 1 := by omega
      rw [if_pos leap]
      rcases century with common | grand
      · have by100 : (y + 1) / 100 = y / 100 := by omega
        have by400 : (y + 1) / 400 = y / 400 := by omega
        omega
      · have by100 : (y + 1) / 100 = y / 100 + 1 := by omega
        have by400 : (y + 1) / 400 = y / 400 + 1 := by omega
        omega
    · rw [if_neg leap]
      rw [isLeapYear_iff] at leap
      have by400 : (y + 1) / 400 = y / 400 := by omega
      by_cases four : (y + 1) % 4 = 0
      · have by4 : (y + 1) / 4 = y / 4 + 1 := by omega
        have by100 : (y + 1) / 100 = y / 100 + 1 := by omega
        omega
      · have by4 : (y + 1) / 4 = y / 4 := by omega
        have by100 : (y + 1) / 100 = y / 100 := by omega
        omega

theorem daysBeforeMonth_succ (y : Nat) {m : Nat} (h : 1 ≤ m) :
    daysBeforeMonth y (m + 1) = daysBeforeMonth y m + daysInMonth y m := by
  obtain ⟨k, rfl⟩ := Nat.exists_eq_add_of_le' h
  simp [daysBeforeMonth, List.range_succ]

/-- The months of a year are the year. -/
theorem daysBeforeMonth_thirteen (y : Nat) : daysBeforeMonth y 13 = daysInYear y := by
  by_cases leap : isLeapYear y = true <;>
    simp [daysBeforeMonth, daysInYear, daysInMonth, leap, List.range, List.range.loop]

theorem monotone_daysBeforeYear : Monotone daysBeforeYear :=
  monotone_nat_of_le_succ fun y => by rw [daysBeforeYear_succ]; omega

theorem monotone_daysBeforeMonth (y : Nat) : Monotone (daysBeforeMonth y) := by
  refine monotone_nat_of_le_succ fun m => ?_
  rcases Nat.eq_zero_or_pos m with rfl | h
  · exact Nat.le_refl _
  · rw [daysBeforeMonth_succ y h]
    omega

theorem daysInMonth_pos (y m : Nat) : 1 ≤ daysInMonth y m := by
  unfold daysInMonth
  split
  · split <;> omega
  · omega
  · omega
  · omega
  · omega
  · omega

/-- The days from the start of year 0 to a day. -/
def dayNumber (t : CalendarTime) : Nat :=
  daysBeforeYear t.year + daysBeforeMonth t.year t.month + (t.day - 1)

def secondOfDay (t : CalendarTime) : Nat := t.hour * 3600 + t.minute * 60 + t.second

theorem toUnix_eq (t : CalendarTime) :
    t.toUnix = ((t.dayNumber : Int) - 719528) * 86400 + t.secondOfDay := rfl

theorem secondOfDay_lt (h : t.isValid) : t.secondOfDay < 86400 := by
  obtain ⟨-, -, -, hour, minute, second⟩ := isValid_iff.mp h
  unfold secondOfDay
  omega

/-- A day is counted in its month. -/
theorem dayNumber_lt_month (h : t.isValid) :
    t.dayNumber < daysBeforeYear t.year + daysBeforeMonth t.year (t.month + 1) := by
  obtain ⟨-, ⟨month, -⟩, ⟨day, bound⟩, -⟩ := isValid_iff.mp h
  rw [dayNumber, daysBeforeMonth_succ _ month]
  omega

/-- A day is counted in its year. -/
theorem dayNumber_lt_year (h : t.isValid) : t.dayNumber < daysBeforeYear (t.year + 1) := by
  have month := dayNumber_lt_month h
  have last : daysBeforeMonth t.year (t.month + 1) ≤ daysBeforeMonth t.year 13 :=
    monotone_daysBeforeMonth _ (by obtain ⟨-, ⟨-, le⟩, -⟩ := isValid_iff.mp h; omega)
  rw [daysBeforeMonth_thirteen] at last
  rw [daysBeforeYear_succ]
  omega

/-- Later days have greater numbers. -/
theorem dayNumber_lt_dayNumber (ha : a.isValid)
    (h : a.year < b.year ∨ a.year = b.year ∧
      (a.month < b.month ∨ a.month = b.month ∧ a.day < b.day)) :
    a.dayNumber < b.dayNumber := by
  rcases h with year | ⟨year, month | ⟨month, day⟩⟩
  · calc a.dayNumber < daysBeforeYear (a.year + 1) := dayNumber_lt_year ha
      _ ≤ daysBeforeYear b.year := monotone_daysBeforeYear year
      _ ≤ b.dayNumber := by unfold dayNumber; omega
  · calc a.dayNumber < daysBeforeYear a.year + daysBeforeMonth a.year (a.month + 1) :=
          dayNumber_lt_month ha
      _ ≤ daysBeforeYear b.year + daysBeforeMonth b.year b.month := by
          rw [year]
          exact Nat.add_le_add_left (monotone_daysBeforeMonth _ month) _
      _ ≤ b.dayNumber := Nat.le_add_right _ _
  · obtain ⟨-, -, ⟨first, -⟩, -⟩ := isValid_iff.mp ha
    unfold dayNumber
    rw [year, month]
    omega

/-- The count of seconds keeps the order. -/
theorem toUnix_lt_toUnix (ha : a.isValid) (h : a < b) : a.toUnix < b.toUnix := by
  have first := secondOfDay_lt ha
  rw [toUnix_eq, toUnix_eq]
  by_cases sameDay : a.year = b.year ∧ a.month = b.month ∧ a.day = b.day
  · obtain ⟨year, month, day⟩ := sameDay
    have days : a.dayNumber = b.dayNumber := by rw [dayNumber, dayNumber, year, month, day]
    have seconds : a.secondOfDay < b.secondOfDay := by
      obtain ⟨-, -, -, -, minute, second⟩ := isValid_iff.mp ha
      rw [lt_iff] at h
      unfold secondOfDay
      omega
    omega
  · have days : a.dayNumber < b.dayNumber := by
      refine dayNumber_lt_dayNumber ha ?_
      rw [lt_iff] at h
      omega
    omega

theorem toUnix_lt_iff (ha : a.isValid) (hb : b.isValid) : a.toUnix < b.toUnix ↔ a < b := by
  refine ⟨fun h => ?_, toUnix_lt_toUnix ha⟩
  rcases lt_or_eq_or_lt a b with before | rfl | after
  · exact before
  · omega
  · have := toUnix_lt_toUnix hb after
    omega

theorem eq_of_toUnix_eq (ha : a.isValid) (hb : b.isValid) (h : a.toUnix = b.toUnix) : a = b := by
  rcases lt_or_eq_or_lt a b with before | same | after
  · have := toUnix_lt_toUnix ha before
    omega
  · exact same
  · have := toUnix_lt_toUnix hb after
    omega

/-- The calendar names no moment before year 0 or after year 9999. -/
theorem names_toUnix (h : t.isValid) : Names t.toUnix := by
  have second := secondOfDay_lt h
  have day : t.dayNumber < daysBeforeYear 10000 :=
    Nat.lt_of_lt_of_le (dayNumber_lt_year h)
      (monotone_daysBeforeYear (by have := (isValid_iff.mp h).1; omega))
  have days : daysBeforeYear 10000 = 3652425 := rfl
  rw [toUnix_eq]
  unfold Names leastUnix greatestUnix
  omega

/-! ## The clock -/

/-- The first second of the day after. -/
def nextDay (t : CalendarTime) : CalendarTime :=
  if t.day < daysInMonth t.year t.month then ⟨t.year, t.month, t.day + 1, 0, 0, 0⟩
  else if t.month < 12 then ⟨t.year, t.month + 1, 1, 0, 0, 0⟩
  else ⟨t.year + 1, 1, 1, 0, 0, 0⟩

/-- The second after a second. -/
def next (t : CalendarTime) : CalendarTime :=
  if t.second < 59 then { t with second := t.second + 1 }
  else if t.minute < 59 then { t with minute := t.minute + 1, second := 0 }
  else if t.hour < 23 then { t with hour := t.hour + 1, minute := 0, second := 0 }
  else t.nextDay

theorem toUnix_nextDay (h : t.isValid) :
    t.nextDay.toUnix = ((t.dayNumber : Int) + 1 - 719528) * 86400 := by
  obtain ⟨-, ⟨firstMonth, lastMonth⟩, ⟨firstDay, lastDay⟩, -⟩ := isValid_iff.mp h
  have month := daysBeforeMonth_succ t.year firstMonth
  rw [toUnix_eq]
  unfold nextDay
  split
  · simp only [dayNumber, secondOfDay]
    omega
  · split
    · simp only [dayNumber, secondOfDay]
      omega
    · have december : t.month = 12 := by omega
      have start : daysBeforeMonth (t.year + 1) 1 = 0 := rfl
      have year := daysBeforeYear_succ t.year
      have whole : daysBeforeMonth t.year (12 + 1) = daysInYear t.year :=
        daysBeforeMonth_thirteen t.year
      simp only [dayNumber, secondOfDay, december] at *
      omega

theorem toUnix_next (h : t.isValid) : t.next.toUnix = t.toUnix + 1 := by
  obtain ⟨-, -, -, hour, minute, second⟩ := isValid_iff.mp h
  have day := toUnix_nextDay h
  unfold next
  split
  · simp only [toUnix_eq, dayNumber, secondOfDay]
    omega
  · split
    · simp only [toUnix_eq, dayNumber, secondOfDay]
      omega
    · split
      · simp only [toUnix_eq, dayNumber, secondOfDay]
        omega
      · rw [day, toUnix_eq, secondOfDay]
        omega

/-- Only after the last day of year 9999 does no day follow. -/
theorem isValid_nextDay (h : t.isValid) (before : t.dayNumber < 3652424) : t.nextDay.isValid := by
  obtain ⟨year, ⟨firstMonth, lastMonth⟩, ⟨firstDay, lastDay⟩, -⟩ := isValid_iff.mp h
  have day := daysInMonth_pos
  rw [isValid_iff]
  unfold nextDay
  split
  · dsimp only
    omega
  · split
    · have := day t.year (t.month + 1)
      dsimp only
      omega
    · have := day (t.year + 1) 1
      have notLast : t.year ≠ 9999 := by
        intro last
        have december : t.month = 12 := by omega
        have days : daysBeforeYear 9999 + daysBeforeMonth 9999 12 = 3652394 := rfl
        have thirtyOne : daysInMonth 9999 12 = 31 := rfl
        simp only [dayNumber, last, december] at *
        omega
      dsimp only
      omega

/-- Only after the last second of year 9999 does no second follow. -/
theorem isValid_next (h : t.isValid) (before : t.toUnix < greatestUnix) : t.next.isValid := by
  obtain ⟨year, month, day, hour, minute, second⟩ := isValid_iff.mp h
  unfold next
  split
  · rw [isValid_iff]
    dsimp only
    omega
  · split
    · rw [isValid_iff]
      dsimp only
      omega
    · split
      · rw [isValid_iff]
        dsimp only
        omega
      · refine isValid_nextDay h ?_
        rw [toUnix_eq, secondOfDay] at before
        unfold greatestUnix at before
        omega

/-- What a calendar clock shows at a moment, in seconds since the start of 1970. -/
inductive Shows : Int → CalendarTime → Prop where
  | epoch : Shows 0 ⟨1970, 1, 1, 0, 0, 0⟩
  | tick {time : Int} {t : CalendarTime} : Shows time t → t.next.isValid → Shows (time + 1) t.next
  | back {time : Int} {t : CalendarTime} : Shows (time + 1) t.next → t.isValid → Shows time t

theorem Shows.isValid_and_toUnix_eq (h : Shows time t) : t.isValid ∧ t.toUnix = time := by
  induction h with
  | epoch => exact ⟨rfl, rfl⟩
  | tick _ valid ih => exact ⟨valid, by rw [toUnix_next ih.1, ih.2]⟩
  | back _ valid ih =>
    have ticked := toUnix_next valid
    exact ⟨valid, by omega⟩

/-- Ticking from the first second of year 0, the calendar comes to every moment. -/
theorem exists_toUnix_eq (named : Names time) :
    ∃ t : CalendarTime, t.isValid ∧ t.toUnix = time := by
  have ticks : ∀ n : Nat, leastUnix + n ≤ greatestUnix →
      ∃ t : CalendarTime, t.isValid ∧ t.toUnix = leastUnix + n := by
    intro n
    induction n with
    | zero => exact fun _ => ⟨⟨0, 1, 1, 0, 0, 0⟩, rfl, rfl⟩
    | succ n ih =>
      intro le
      obtain ⟨t, valid, reached⟩ := ih (by omega)
      refine ⟨t.next, isValid_next valid (by omega), ?_⟩
      rw [toUnix_next valid]
      omega
  obtain ⟨least, greatest⟩ := named
  obtain ⟨t, valid, reached⟩ := ticks (time - leastUnix).toNat (by omega)
  exact ⟨t, valid, by omega⟩

/-- The clock shows something at every moment that calendars name. -/
theorem exists_shows (named : Names time) : ∃ t, Shows time t := by
  have forth : ∀ n : Nat, (n : Int) ≤ greatestUnix → ∃ t, Shows n t := by
    intro n
    induction n with
    | zero => exact fun _ => ⟨_, .epoch⟩
    | succ n ih =>
      intro le
      obtain ⟨t, shown⟩ := ih (by omega)
      obtain ⟨valid, reached⟩ := shown.isValid_and_toUnix_eq
      exact ⟨_, .tick shown (isValid_next valid (by omega))⟩
  have back : ∀ n : Nat, leastUnix ≤ -(n : Int) → ∃ t, Shows (-n) t := by
    intro n
    induction n with
    | zero => exact fun _ => ⟨_, .epoch⟩
    | succ n ih =>
      intro le
      obtain ⟨after, shown⟩ := ih (by omega)
      obtain ⟨validAfter, reached⟩ := shown.isValid_and_toUnix_eq
      have greatest := (names_toUnix validAfter).2
      -- the second before is the one whose next the clock shows
      have named : Names (-((n + 1 : Nat) : Int)) := ⟨le, by omega⟩
      obtain ⟨t, valid, earlier⟩ := exists_toUnix_eq named
      have ticked := toUnix_next valid
      have same : t.next = after :=
        eq_of_toUnix_eq (isValid_next valid (by omega)) validAfter (by omega)
      refine ⟨t, .back ?_ valid⟩
      rw [same, show -((n + 1 : Nat) : Int) + 1 = -n by omega]
      exact shown
  obtain ⟨least, greatest⟩ := named
  rcases Int.le_total 0 time with after | before
  · obtain ⟨n, rfl⟩ := Int.eq_ofNat_of_zero_le after
    exact forth n greatest
  · obtain ⟨n, rfl⟩ := Int.exists_eq_neg_ofNat before
    exact back n least

/-- The clock shows the second that the count of seconds names. -/
theorem shows_iff : Shows time t ↔ t.isValid ∧ t.toUnix = time := by
  refine ⟨Shows.isValid_and_toUnix_eq, ?_⟩
  rintro ⟨valid, rfl⟩
  obtain ⟨shown, h⟩ := exists_shows (names_toUnix valid)
  obtain ⟨valid', same⟩ := h.isValid_and_toUnix_eq
  rwa [eq_of_toUnix_eq valid' valid same] at h

theorem Shows.unique (h : Shows time a) (h' : Shows time b) : a = b := by
  obtain ⟨ha, rfl⟩ := shows_iff.mp h
  obtain ⟨hb, same⟩ := shows_iff.mp h'
  exact eq_of_toUnix_eq ha hb same.symm

/-- The clock goes forward. -/
theorem Shows.lt_iff_lt (h : Shows time a) (h' : Shows time' b) : a < b ↔ time < time' := by
  obtain ⟨ha, rfl⟩ := shows_iff.mp h
  obtain ⟨hb, rfl⟩ := shows_iff.mp h'
  exact (toUnix_lt_iff ha hb).symm

end CalendarTime

end HostTrust
