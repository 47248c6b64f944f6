/-
HostTrust.Proofs.WrittenTime — the two forms in which certificates write times.

Both forms write two digits for each part and end in `Z`. The short form leaves
the century out and is for the years 1950 to 2049; the long form has all four
digits of the year. Reading accepts exactly what the forms write for a second of
the calendar (`ofShort?_eq_some_iff`, `ofLong?_eq_some_iff`), so a text means at
most one second, and the bounds of a certificate that was read are seconds of
the calendar.
-/
import HostTrust.Proofs.Calendar
import HostTrust.Proofs.CertificateText

namespace HostTrust

namespace CalendarTime

variable {t : CalendarTime} {cs : List Char}

/-! ## Digits -/

/-- A number below 100 in two digits. -/
def twoDigits (n : Nat) : List Char := [Nat.digitChar (n / 10), Nat.digitChar (n % 10)]

theorem digit_iff {c : Char} :
    ('0' ≤ c && c ≤ '9') = true ↔ ∃ d, d < 10 ∧ c = Nat.digitChar d := by
  have bounds : ('0' ≤ c && c ≤ '9') = true ↔ 48 ≤ c.toNat ∧ c.toNat ≤ 57 := by
    simp only [Bool.and_eq_true, decide_eq_true_eq]
    rfl
  rw [bounds]
  constructor
  · rintro ⟨low, high⟩
    refine ⟨c.toNat - 48, by omega, Char.toNat_inj.mp ?_⟩
    rw [Nat.toNat_digitChar_of_lt_ten (by omega)]
    omega
  · rintro ⟨d, small, rfl⟩
    rw [Nat.toNat_digitChar_of_lt_ten small]
    omega

/-- A text of digits is read digit by digit. -/
theorem number?_eq_some_iff {n : Nat} :
    number? cs = some n ↔ (∀ c ∈ cs, ∃ d, d < 10 ∧ c = Nat.digitChar d) ∧
      cs.foldl (fun n c => n * 10 + (c.toNat - 48)) 0 = n := by
  simp only [number?, ← digit_iff, ← List.all_eq_true]
  split <;> simp_all

theorem number?_two_iff {a b : Char} {n : Nat} :
    number? [a, b] = some n ↔ n < 100 ∧ [a, b] = twoDigits n := by
  rw [number?_eq_some_iff]
  constructor
  · rintro ⟨digits, rfl⟩
    obtain ⟨d, hd, rfl⟩ := digits a (by simp)
    obtain ⟨e, he, rfl⟩ := digits b (by simp)
    simp only [List.foldl_cons, List.foldl_nil, Nat.toNat_digitChar_of_lt_ten, hd, he, twoDigits]
    have tens : (((0 * 10 + (48 + d - 48)) * 10 + (48 + e - 48)) / 10) = d := by omega
    have ones : (((0 * 10 + (48 + d - 48)) * 10 + (48 + e - 48)) % 10) = e := by omega
    rw [tens, ones]
    exact ⟨by omega, rfl⟩
  · rintro ⟨small, same⟩
    obtain ⟨rfl, rfl⟩ : a = Nat.digitChar (n / 10) ∧ b = Nat.digitChar (n % 10) := by
      simpa [twoDigits] using same
    refine ⟨?_, ?_⟩
    · intro c hc
      rcases List.mem_pair.mp hc with rfl | rfl
      · exact ⟨n / 10, by omega, rfl⟩
      · exact ⟨n % 10, by omega, rfl⟩
    · simp only [List.foldl_cons, List.foldl_nil]
      rw [Nat.toNat_digitChar_of_lt_ten (by omega), Nat.toNat_digitChar_of_lt_ten (by omega)]
      omega

theorem number?_four_iff {a b c d : Char} {n : Nat} :
    number? [a, b, c, d] = some n ↔
      n < 10000 ∧ [a, b, c, d] = twoDigits (n / 100) ++ twoDigits (n % 100) := by
  have halves : number? [a, b, c, d] = some n ↔
      ∃ high low, number? [a, b] = some high ∧ number? [c, d] = some low ∧
        high * 100 + low = n := by
    simp only [number?_eq_some_iff, List.foldl_cons, List.foldl_nil, List.forall_mem_cons,
      List.not_mem_nil, false_imp_iff, implies_true, and_true]
    constructor
    · rintro ⟨⟨ha, hb, hc, hd⟩, rfl⟩
      exact ⟨_, _, ⟨⟨ha, hb⟩, rfl⟩, ⟨⟨hc, hd⟩, rfl⟩, by omega⟩
    · rintro ⟨_, _, ⟨⟨ha, hb⟩, rfl⟩, ⟨⟨hc, hd⟩, rfl⟩, rfl⟩
      exact ⟨⟨ha, hb, hc, hd⟩, by omega⟩
  rw [halves]
  constructor
  · rintro ⟨high, low, first, last, rfl⟩
    obtain ⟨hhigh, first⟩ := number?_two_iff.mp first
    obtain ⟨hlow, last⟩ := number?_two_iff.mp last
    have century : (high * 100 + low) / 100 = high := by omega
    have year : (high * 100 + low) % 100 = low := by omega
    rw [century, year, ← first, ← last]
    exact ⟨by omega, rfl⟩
  · rintro ⟨small, same⟩
    obtain ⟨first, last⟩ : [a, b] = twoDigits (n / 100) ∧ [c, d] = twoDigits (n % 100) :=
      List.append_inj same (by simp [twoDigits])
    exact ⟨_, _, number?_two_iff.mpr ⟨by omega, first⟩, number?_two_iff.mpr ⟨by omega, last⟩,
      by omega⟩

/-! ## Forms -/

/-- What both forms write after the year. -/
def afterYear (t : CalendarTime) : List Char :=
  twoDigits t.month ++ twoDigits t.day ++ twoDigits t.hour ++ twoDigits t.minute ++
    twoDigits t.second ++ ['Z']

def shortForm (t : CalendarTime) : List Char := twoDigits (t.year % 100) ++ t.afterYear

def longForm (t : CalendarTime) : List Char :=
  twoDigits (t.year / 100) ++ twoDigits (t.year % 100) ++ t.afterYear

theorem ofDigits?_eq_some_iff {year : Nat} :
    ofDigits? year cs = some t ↔ t.isValid ∧ t.year = year ∧ cs = t.afterYear := by
  constructor
  · intro h
    simp only [ofDigits?, Option.bind_eq_bind, Option.bind_eq_some_iff] at h
    obtain ⟨month, hmonth, day, hday, hour, hhour, minute, hminute, second, hsecond, made⟩ := h
    split at made
    · next ok =>
      obtain ⟨length, last, valid⟩ := ok
      obtain rfl := Option.some.inj made
      refine ⟨valid, rfl, ?_⟩
      match cs, length with
      | [a, b, c, d, e, f, g, h, i, j, k], _ =>
        obtain rfl : k = 'Z' := by simpa using last
        obtain ⟨-, month⟩ := number?_two_iff.mp hmonth
        obtain ⟨-, day⟩ := number?_two_iff.mp hday
        obtain ⟨-, hour⟩ := number?_two_iff.mp hhour
        obtain ⟨-, minute⟩ := number?_two_iff.mp hminute
        obtain ⟨-, second⟩ := number?_two_iff.mp hsecond
        simp only [afterYear, ← month, ← day, ← hour, ← minute, ← second]
        rfl
    · cases made
  · rintro ⟨valid, rfl, rfl⟩
    obtain ⟨-, ⟨-, month⟩, ⟨-, day⟩, hour, minute, second⟩ := isValid_iff.mp valid
    have days : daysInMonth t.year t.month ≤ 31 := by
      unfold daysInMonth
      repeat' split
      all_goals omega
    have hmonth : number? (t.afterYear.take 2) = some t.month :=
      number?_two_iff.mpr ⟨by omega, rfl⟩
    have hday : number? ((t.afterYear.drop 2).take 2) = some t.day :=
      number?_two_iff.mpr ⟨by omega, rfl⟩
    have hhour : number? ((t.afterYear.drop 4).take 2) = some t.hour :=
      number?_two_iff.mpr ⟨by omega, rfl⟩
    have hminute : number? ((t.afterYear.drop 6).take 2) = some t.minute :=
      number?_two_iff.mpr ⟨by omega, rfl⟩
    have hsecond : number? ((t.afterYear.drop 8).take 2) = some t.second :=
      number?_two_iff.mpr ⟨by omega, rfl⟩
    have ending : t.afterYear.length = 11 ∧ t.afterYear.getLast? = some 'Z' := ⟨rfl, rfl⟩
    simp [ofDigits?, hmonth, hday, hhour, hminute, hsecond, ending, valid]

/-- The short form is for the years 1950 to 2049, and is read as the year of these that it means. -/
theorem ofShort?_eq_some_iff :
    ofShort? cs = some t ↔ t.isValid ∧ (1950 ≤ t.year ∧ t.year ≤ 2049) ∧ cs = t.shortForm := by
  simp only [ofShort?, Option.bind_eq_bind, Option.bind_eq_some_iff, ofDigits?_eq_some_iff]
  constructor
  · rintro ⟨y, read, valid, year, rest⟩
    match cs with
    | [] | [_] => cases rest
    | a :: b :: cs =>
      obtain ⟨small, digits⟩ : y < 100 ∧ [a, b] = twoDigits y := number?_two_iff.mp read
      have inCentury : t.year % 100 = y ∧ 1950 ≤ t.year ∧ t.year ≤ 2049 := by
        split at year <;> omega
      refine ⟨valid, inCentury.2, ?_⟩
      rw [shortForm, inCentury.1, ← digits, ← rest]
      rfl
  · rintro ⟨valid, ⟨first, last⟩, rfl⟩
    refine ⟨t.year % 100, number?_two_iff.mpr ⟨by omega, rfl⟩, valid, ?_, rfl⟩
    split <;> omega

theorem ofLong?_eq_some_iff : ofLong? cs = some t ↔ t.isValid ∧ cs = t.longForm := by
  simp only [ofLong?, Option.bind_eq_bind, Option.bind_eq_some_iff, ofDigits?_eq_some_iff]
  constructor
  · rintro ⟨y, read, valid, rfl, rest⟩
    match cs with
    | [] | [_] | [_, _] | [_, _, _] => cases rest
    | a :: b :: c :: d :: cs =>
      obtain ⟨-, digits⟩ : t.year < 10000 ∧
          [a, b, c, d] = twoDigits (t.year / 100) ++ twoDigits (t.year % 100) :=
        number?_four_iff.mp read
      refine ⟨valid, ?_⟩
      rw [longForm, ← digits, ← rest]
      rfl
  · rintro ⟨valid, rfl⟩
    have year := (isValid_iff.mp valid).1
    exact ⟨t.year, number?_four_iff.mpr ⟨by omega, rfl⟩, valid, rfl, rfl⟩

end CalendarTime

/-! ## Times of certificates -/

/-- An element writes a second of the calendar: in the short form, or in the long one. -/
def Der.Element.Writes (e : Der.Element) (t : CalendarTime) : Prop :=
  t.isValid ∧
    (e.tag = Der.utcTime ∧ (1950 ≤ t.year ∧ t.year ≤ 2049) ∧
        e.content.map (fun b => Char.ofNat b.toNat) = t.shortForm ∨
      e.tag = Der.generalizedTime ∧ e.content.map (fun b => Char.ofNat b.toNat) = t.longForm)

namespace Certificate

theorem time?_eq_some_iff {e : Der.Element} {t : CalendarTime} :
    time? e = some t ↔ e.Writes t := by
  unfold time? Der.Element.Writes
  by_cases short : e.tag = Der.utcTime
  · have notLong : Der.utcTime ≠ Der.generalizedTime := by decide
    simp [short, notLong, CalendarTime.ofShort?_eq_some_iff]
  · by_cases long : e.tag = Der.generalizedTime
    · have notShort : Der.generalizedTime ≠ Der.utcTime := by decide
      simp [long, notShort, CalendarTime.ofLong?_eq_some_iff]
    · simp [short, long]

/-- The bounds of a certificate are written in it, one after the other. -/
theorem exists_writes_of_ofBytes? {bs : Bytes} {c : Certificate} (h : ofBytes? bs = some c) :
    ∃ validity notBefore notAfter : Der.Element, validity.content <:+: bs ∧
      validity.parts = some [notBefore, notAfter] ∧
      notBefore.Writes c.notBefore ∧ notAfter.Writes c.notAfter := by
  obtain ⟨-, validity, notBefore, notAfter, -, -, -, within, parts, first, last⟩ :=
    exists_parts_of_ofBytes? h
  exact ⟨validity, notBefore, notAfter, within, parts, time?_eq_some_iff.mp first,
    time?_eq_some_iff.mp last⟩

/-- However a text gives a certificate, it is read from bytes. -/
theorem exists_ofBytes?_of_decode {text role : String} (h : decode text role = .ok c) :
    ∃ bs, ofBytes? bs = some c := by
  unfold decode at h
  simp only at h
  split at h
  · unfold ofPem? at h
    cases found : (Pem.blocks (String.ofList (Text.trimChars text.toList))).1.find?
        fun b => isLabel b.label with
    | none => simp [found] at h
    | some block =>
      cases read : ofBytes? block.content with
      | none => simp [found, read] at h
      | some c' =>
        obtain rfl : c' = c := by simpa [found, read] using h
        exact ⟨_, read⟩
  · split at h
    · next bytes _ =>
      cases read : ofBytes? bytes with
      | none => simp [read] at h
      | some c' =>
        obtain rfl : c' = c := by simpa [read] using h
        exact ⟨_, read⟩
    · simp at h

/-- A moment between the bounds of such a certificate is one that calendars name. -/
theorem names_of_decode {text role : String} {time : Int} (h : decode text role = .ok c)
    (first : c.notBefore.toUnix ≤ time) (last : time ≤ c.notAfter.toUnix) :
    CalendarTime.Names time := by
  obtain ⟨bs, read⟩ := exists_ofBytes?_of_decode h
  obtain ⟨_, _, _, _, _, begins, ends⟩ := exists_writes_of_ofBytes? read
  exact ⟨(CalendarTime.names_toUnix begins.1).1.trans first,
    last.trans (CalendarTime.names_toUnix ends.1).2⟩

end Certificate

end HostTrust
