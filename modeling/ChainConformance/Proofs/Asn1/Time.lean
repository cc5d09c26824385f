import ChainConformance.Asn1.Time
import ChainConformance.Proofs.Outcome
import Mathlib.Data.Option.Basic

/-!
# Times

Proved here:

* `civilFromDays_spec`: the calendar has the days that are counted, and counts them alike;
* `mod_eq_of_encode_eq`: a written time shows its clock;
* `read_encode`: a time in a year of four digits is read back.
-/

namespace ChainConformance.Time

/-! ## Calendar -/

/-- A day of an era of 400 years is the last one, or the `s`-th of a cycle of four years: the
`k`-th cycle of the `c`-th century, which is one day short if it is the last of the century. -/
inductive IsDay : Int → Int → Int → Prop
  | within (c k j s : Int) (century : 0 ≤ c ∧ c ≤ 3) (cycle : 0 ≤ k ∧ k ≤ 24) (year : 0 ≤ j ∧ j ≤ 3)
      (day : 0 ≤ s ∧ (s ≤ 364 ∨ s = 365 ∧ j = 3 ∧ k < 24)) :
      IsDay (36524 * c + 1461 * k + 365 * j + s) (100 * c + 4 * k + j) s
  | last : IsDay 146096 399 365

theorem exists_isDay {d : Int} (low : 0 ≤ d) (high : d < 146097) : ∃ y s, IsDay d y s := by
  by_cases last : d = 146096
  · exact ⟨399, 365, last ▸ .last⟩
  · let c := d / 36524
    let k := d % 36524 / 1461
    let r := d % 36524 % 1461
    let j := if r = 1460 then 3 else r / 365
    have split : 36524 * c + 1461 * k + 365 * j + (r - 365 * j) = d := by
      omega
    refine ⟨100 * c + 4 * k + j, r - 365 * j, ?_⟩
    have := IsDay.within c k j (r - 365 * j) (by omega) (by omega) (by grind) (by grind)
    rwa [split] at this

theorem yearOfEra_eq {d y s : Int} (h : IsDay d y s) :
    (d - d / 1460 + d / 36524 - d / 146096) / 365 = y := by
  cases h with
  | last => decide
  | within c k j s century cycle year day =>
    have first : (36524 * c + 1461 * k + 365 * j + s) / 1460 =
        25 * c + k + if 1460 ≤ k + 365 * j + s + 24 * c then 1 else 0 := by
      split <;> omega
    have second : (36524 * c + 1461 * k + 365 * j + s) / 36524 = c := by omega
    have third : (36524 * c + 1461 * k + 365 * j + s) / 146096 = 0 := by omega
    rw [first, second, third]
    split <;> omega

theorem dayOfYear_eq {d y s : Int} (h : IsDay d y s) : d - (365 * y + y / 4 - y / 100) = s := by
  cases h with
  | last => decide
  | within c k j s century cycle year day =>
    have fourth : (100 * c + 4 * k + j) / 4 = 25 * c + k := by omega
    have hundredth : (100 * c + 4 * k + j) / 100 = c := by omega
    rw [fourth, hundredth]
    omega

/-- The last day of a year that starts in March is the leap day. -/
theorem isDay_bounds {d y s : Int} (h : IsDay d y s) (era : Int) : 0 ≤ y ∧ y ≤ 399 ∧ 0 ≤ s ∧
    (s ≤ 364 ∨ s = 365 ∧ isLeap (y + era * 400 + 1) = true) := by
  cases h with
  | last =>
    refine ⟨by decide, by decide, by decide, .inr ⟨rfl, ?_⟩⟩
    simp only [isLeap, Bool.and_eq_true, Bool.or_eq_true, decide_eq_true_eq]
    omega
  | within c k j s century cycle year day =>
    refine ⟨by omega, by omega, by omega, day.2.imp_right fun last => ⟨last.1, ?_⟩⟩
    simp only [isLeap, Bool.and_eq_true, Bool.or_eq_true, decide_eq_true_eq]
    omega

/-- The day and the month of a day of the year that starts in March. -/
theorem monthOfDay_bounds {s m : Int} (first : 0 ≤ s) (last : s ≤ 365)
    (month : m = (5 * s + 2) / 153) :
    0 ≤ m ∧ m ≤ 11 ∧ 1 ≤ s - (153 * m + 2) / 5 + 1 ∧ s - (153 * m + 2) / 5 + 1 ≤ 31 ∧
      (m ∈ [1, 3, 6, 8] → s - (153 * m + 2) / 5 + 1 ≤ 30) ∧
      (m = 11 → s - (153 * m + 2) / 5 + 1 = s - 336) := by
  simp only [List.mem_cons, List.not_mem_nil, or_false]
  omega

/-- The date of the `s`-th day of the `y`-th year of an era, which lies in the `m`-th month of that
year. Years and months are counted from March on. -/
structure IsDate (era y s m year : Int) (month day : Nat) : Prop where
  monthOf : (m < 10 ∧ (month : Int) = m + 3) ∨ (10 ≤ m ∧ (month : Int) = m - 9)
  dayOf : (day : Int) = s - (153 * m + 2) / 5 + 1
  yearOf : (month ≤ 2 ∧ year = y + era * 400 + 1) ∨ (2 < month ∧ year = y + era * 400)

section
variable {era y s m year : Int} {month day : Nat}

theorem isDate_of_shown {days : Int} (h : IsDay ((days + 719468) % 146097) y s)
    (shown : civilFromDays days = (year, month, day)) :
    IsDate ((days + 719468) / 146097) y s ((5 * s + 2) / 153) year month day := by
  obtain ⟨-, -, first, last⟩ := isDay_bounds h ((days + 719468) / 146097)
  simp only [civilFromDays, yearOfEra_eq h, dayOfYear_eq h, Prod.mk.injEq] at shown
  obtain ⟨yearIs, monthIs, dayIs⟩ := shown
  have bounds := monthOfDay_bounds first (by omega) rfl
  generalize (5 * s + 2) / 153 = m at *
  have monthOf : (m < 10 ∧ (month : Int) = m + 3) ∨ (10 ≤ m ∧ (month : Int) = m - 9) := by
    split at monthIs <;> omega
  refine ⟨monthOf, by omega, ?_⟩
  split at yearIs
  · omega
  · split at yearIs <;> omega

/-- No month is longer than in the calendar, and the leap day is the last of its year. -/
theorem day_le_daysInMonth (date : IsDate era y s m year month day) (first : 0 ≤ s)
    (last : s ≤ 364 ∨ s = 365 ∧ isLeap (y + era * 400 + 1) = true) (mIs : m = (5 * s + 2) / 153) :
    day ≤ daysInMonth year month := by
  obtain ⟨monthOf, dayOf, yearOf⟩ := date
  obtain ⟨least, most, day₁, day₃₁, day₃₀, february⟩ := monthOfDay_bounds first (by omega) mIs
  rw [daysInMonth]
  split
  · next second =>
    have isFebruary : m = 11 := by omega
    split
    · omega
    · next common =>
      rcases last with short | ⟨-, leap⟩
      · omega
      · -- the leap day would be in a common year
        rcases yearOf with ⟨-, rfl⟩ | later
        · exact absurd leap common
        · omega
  split
  · next short =>
    have among : m ∈ [1, 3, 6, 8] := by
      simp only [List.mem_cons, List.not_mem_nil, or_false]
      omega
    have := day₃₀ among
    omega
  · omega

theorem daysFromCivil_of_isDate (date : IsDate era y s m year month day) (low : 0 ≤ y)
    (high : y ≤ 399) (least : 0 ≤ m) (most : m ≤ 11) (day₁ : 1 ≤ day) :
    daysFromCivil year month day =
      era * 146097 + (y * 365 + y / 4 - y / 100 + s) - 719468 := by
  obtain ⟨monthOf, dayOf, yearOf⟩ := date
  have shifted : (((month + 9) % 12 : Nat) : Int) = m := by omega
  have inMonths : (((153 * ((month + 9) % 12) + 2) / 5 + day - 1 : Nat) : Int) = s := by
    generalize (month + 9) % 12 = n at shifted
    clear monthOf yearOf
    omega
  have began : (if month ≤ 2 then year - 1 else year) = y + era * 400 := by
    split <;> omega
  have century : (y + era * 400) / 400 = era := by omega
  have inside : (y + era * 400) % 400 = y := by omega
  simp only [daysFromCivil, began, century, inside, inMonths]

end

/-- The calendar has every day that is shown, and it lies where it was counted from. -/
theorem civilFromDays_spec (days : Int) {year : Int} {month day : Nat}
    (shown : civilFromDays days = (year, month, day)) :
    1 ≤ month ∧ month ≤ 12 ∧ 1 ≤ day ∧ day ≤ daysInMonth year month ∧
      daysFromCivil year month day = days := by
  obtain ⟨y, s, h⟩ := exists_isDay (d := (days + 719468) % 146097) (by omega) (by omega)
  obtain ⟨low, high, first, last⟩ := isDay_bounds h ((days + 719468) / 146097)
  have inYear := dayOfYear_eq h
  have date := isDate_of_shown h shown
  have inMonth := day_le_daysInMonth date first last rfl
  obtain ⟨least, most, -⟩ := monthOfDay_bounds first (by omega) rfl
  have monthOf := date.monthOf
  have dayOf := date.dayOf
  have positive : 1 ≤ day := by omega
  refine ⟨by omega, by omega, positive, inMonth, ?_⟩
  rw [daysFromCivil_of_isDate date low high least most positive]
  omega

/-! ## Clocks -/

theorem twoDigits?_writeTwo : ∀ n < 100,
    ∃ a b, writeTwo n = [a, b] ∧ twoDigits? a b = some n := by
  intro n small
  refine ⟨_, _, rfl, ?_⟩
  revert n
  decide +kernel

theorem writeTwo_injective {m n : Nat} (small : m < 100) (small' : n < 100)
    (h : writeTwo m = writeTwo n) : m = n := by
  obtain ⟨a, b, written, read⟩ := twoDigits?_writeTwo m small
  obtain ⟨a', b', written', read'⟩ := twoDigits?_writeTwo n small'
  rw [written, written'] at h
  cases h
  rw [read] at read'
  exact Option.some.inj read'

/-- The end of a time, which shows hours, minutes and seconds. -/
def clock (ofDay : Nat) : Bytes :=
  writeTwo (ofDay / 3600) ++ writeTwo (ofDay / 60 % 60) ++ writeTwo (ofDay % 60) ++ [90]

theorem clock_injective {m n : Nat} (small : m < 86400) (small' : n < 86400)
    (h : clock m = clock n) : m = n := by
  simp only [clock, List.append_assoc] at h
  obtain ⟨hours, h⟩ := List.append_inj h rfl
  obtain ⟨minutes, h⟩ := List.append_inj h rfl
  obtain ⟨seconds, -⟩ := List.append_inj h rfl
  have hours := writeTwo_injective (by omega) (by omega) hours
  have minutes := writeTwo_injective (by omega) (by omega) minutes
  have seconds := writeTwo_injective (by omega) (by omega) seconds
  omega

/-- The last seven bytes of a time are its clock. -/
theorem exists_front (seconds : Int) :
    ∃ front, (encode seconds).contents = front ++ clock (seconds % 86400).toNat := by
  simp only [encode]
  split
  · exact ⟨_ ++ (_ ++ _), by simp only [clock, List.append_assoc]; rfl⟩
  · exact ⟨_ ++ (_ ++ (_ ++ _)), by simp only [clock, List.append_assoc]; rfl⟩

/-- Times that are written alike are at the same time of the day. -/
theorem mod_eq_of_encode_eq {s t : Int} (h : encode s = encode t) : s % 86400 = t % 86400 := by
  obtain ⟨front, written⟩ := exists_front s
  obtain ⟨front', written'⟩ := exists_front t
  rw [h, written'] at written
  have clocks := (List.append_inj' written rfl).2
  have same := clock_injective (by omega) (by omega) clocks
  omega

/-! ## Reading -/

/-- The year of a time. -/
def year (seconds : Int) : Int := (civilFromDays (seconds / 86400)).1

/-- The element that is written for a time is of one of two types, and read as one of this type. -/
def ReadsAs (e : Strict.Element) (seconds : Int) : Prop :=
  e.tag = 0x17 ∧ readUtc? e.contents = some seconds ∨
    e.tag = 0x18 ∧ readGeneralized? e.contents = some seconds

theorem daysInMonth_le (year : Int) (month : Nat) : daysInMonth year month ≤ 31 := by
  rw [daysInMonth]
  split
  · split <;> decide
  · split <;> decide

/-- What stands after the year. -/
theorem readRest_clock {month day ofDay : Nat} (month₁₂ : month ≤ 12) (day₃₁ : day ≤ 31)
    (small : ofDay < 86400) :
    (fields? (writeTwo month ++ writeTwo day ++ writeTwo (ofDay / 3600) ++
        writeTwo (ofDay / 60 % 60) ++ writeTwo (ofDay % 60) ++ [90])) =
      some ((month, day, ofDay / 3600, ofDay / 60 % 60), writeTwo (ofDay % 60) ++ [90]) ∧
    second? (writeTwo (ofDay % 60) ++ [90]) = some (ofDay % 60, [90]) ∧
    inRange month day (ofDay / 3600) (ofDay / 60 % 60) (ofDay % 60) = true := by
  obtain ⟨a, b, written, read⟩ := twoDigits?_writeTwo month (by omega)
  obtain ⟨a', b', written', read'⟩ := twoDigits?_writeTwo day (by omega)
  obtain ⟨h, h', hours, readHours⟩ := twoDigits?_writeTwo (ofDay / 3600) (by omega)
  obtain ⟨m, m', minutes, readMinutes⟩ := twoDigits?_writeTwo (ofDay / 60 % 60) (by omega)
  obtain ⟨s, s', seconds, readSeconds⟩ := twoDigits?_writeTwo (ofDay % 60) (by omega)
  refine ⟨?_, ?_, ?_⟩
  · simp [written, written', hours, minutes, fields?, read, read', readHours, readMinutes]
  · simp [seconds, second?, readSeconds]
  · simp only [inRange, Bool.and_eq_true, decide_eq_true_eq]
    omega

theorem read_encode {seconds : Int} (least : 0 ≤ year seconds) (most : year seconds ≤ 9999) :
    ReadsAs (encode seconds) seconds := by
  obtain ⟨⟨y, month, day⟩, shown⟩ : ∃ date, civilFromDays (seconds / 86400) = date := ⟨_, rfl⟩
  obtain ⟨month₁, month₁₂, day₁, inMonth, counted⟩ := civilFromDays_spec _ shown
  rw [year, shown] at least most
  have ofDay : (seconds % 86400).toNat < 86400 := by omega
  obtain ⟨fields, second, range⟩ :=
    readRest_clock month₁₂ (Nat.le_trans inMonth (daysInMonth_le y month)) ofDay
  have value : seconds? y month day ((seconds % 86400).toNat / 3600)
      ((seconds % 86400).toNat / 60 % 60) ((seconds % 86400).toNat % 60) = some seconds := by
    rw [seconds?, if_pos ⟨month₁, month₁₂, day₁, inMonth⟩, counted, Option.some.injEq]
    omega
  obtain ⟨a, b, low, readLow⟩ := twoDigits?_writeTwo (y.toNat % 100) (by omega)
  obtain ⟨c, d, high, readHigh⟩ := twoDigits?_writeTwo (y.toNat / 100) (by omega)
  simp only [encode, shown]
  split
  · next century =>
    refine .inl ⟨rfl, ?_⟩
    have yearIs : (if 50 ≤ y.toNat % 100 then 1900 + ((y.toNat % 100 : Nat) : Int)
        else 2000 + ((y.toNat % 100 : Nat) : Int)) = y := by
      split <;> omega
    simp only [low, List.cons_append, List.nil_append, readUtc?, readLow, fields, second, range,
      Option.pure_def, Option.bind_eq_bind, Option.bind_some, yearIs, value]
    simp [zone?]
  · refine .inr ⟨rfl, ?_⟩
    have yearIs : ((y.toNat / 100 * 100 + y.toNat % 100 : Nat) : Int) = y := by omega
    have rest : skipFraction? [90] = .some [90] := rfl
    simp only [low, high, List.cons_append, List.nil_append, readGeneralized?, readLow, readHigh,
      fields, second, range, rest, Option.pure_def, Option.bind_eq_bind, Option.bind_some, yearIs,
      value]
    simp [zone?]

end ChainConformance.Time
