import Mathlib.Tactic.Linarith
import Marketplace.Time.Instant
set_option autoImplicit false

/-!
# Days and dates

Every day has a date, and the date leads back to the day (`Instant.civilFromDays_isDate`,
`Instant.daysFromCivil_civilFromDays`).  Days are counted in eras of four hundred years that begin
in March, so that a leap day is the last day of its year.
-/

namespace Marketplace.Instant

/-! ## Days of an era -/

/-- The days of an era that lie before a year of it. -/
def daysBeforeYear (y : Int) : Int := 365 * y + y / 4 - y / 100

/-- The year of an era that a day of it falls into. -/
def yearOfEra (e : Int) : Int := (e - e / 1460 + e / 36524 - e / 146096) / 365

/-- An era has four centuries of twenty-five cycles of four years, and every day beyond the years of
these stands at the end. -/
theorem exists_cycles {e : Int} (hlow : 0 ≤ e) (hhigh : e ≤ 146096) : ∃ c q j d : Int,
    (0 ≤ c ∧ c ≤ 3) ∧ (0 ≤ q ∧ q ≤ 24) ∧ (0 ≤ j ∧ j ≤ 3) ∧ (0 ≤ d ∧ d ≤ 365) ∧
      (d = 365 → j = 3 ∧ (q = 24 → c = 3)) ∧ e = 36524 * c + 1461 * q + 365 * j + d := by
  obtain ⟨c, f, hc, hf, hlast, he⟩ : ∃ c f : Int, (0 ≤ c ∧ c ≤ 3) ∧ (0 ≤ f ∧ f ≤ 36524) ∧
      (f = 36524 → c = 3) ∧ e = 36524 * c + f := by
    by_cases hend : e = 146096
    · exact ⟨3, 36524, by omega, by omega, by omega, by omega⟩
    · exact ⟨e / 36524, e % 36524, by omega, by omega, by omega, by omega⟩
  obtain ⟨j, d, hj, hd, hleap, hyear⟩ : ∃ j d : Int, (0 ≤ j ∧ j ≤ 3) ∧ (0 ≤ d ∧ d ≤ 365) ∧
      (d = 365 → j = 3 ∧ f % 1461 = 1460) ∧ f % 1461 = 365 * j + d := by
    by_cases hend : f % 1461 = 1460
    · exact ⟨3, 365, by omega, by omega, by omega, by omega⟩
    · exact ⟨f % 1461 / 365, f % 1461 % 365, by omega, by omega, by omega, by omega⟩
  exact ⟨c, f / 1461, j, d, hc, by omega, hj, hd, by omega, by omega⟩

/-- The days that the count of four-year cycles runs ahead by stay within the day's own year. -/
theorem cycles_ahead {c q j d : Int} (hc : 0 ≤ c ∧ c ≤ 3) (hq : 0 ≤ q ∧ q ≤ 24) (hj : 0 ≤ j ∧ j ≤ 3)
    (hd : 0 ≤ d ∧ d ≤ 365) (hleap : d = 365 → j = 3) :
    0 ≤ d - (24 * c + q + 365 * j + d) / 1460 ∧ d - (24 * c + q + 365 * j + d) / 1460 ≤ 364 := by
  by_cases hless : 24 * c + q + 365 * j + d < 1460
  · rw [Int.ediv_eq_zero_of_lt (by omega) hless]
    omega
  · have hone : (24 * c + q + 365 * j + d) / 1460 = 1 := by
      rw [Int.ediv_eq_iff_of_pos (by decide)]
      omega
    omega

/-- Every day of an era falls into a year of it, and only leap years have a last day beyond three
hundred and sixty-five. -/
theorem yearOfEra_spec {e : Int} (hlow : 0 ≤ e) (hhigh : e ≤ 146096) : ∃ d : Int,
    e = daysBeforeYear (yearOfEra e) + d ∧ (0 ≤ yearOfEra e ∧ yearOfEra e ≤ 399) ∧
      (0 ≤ d ∧ d ≤ 365) ∧ (d = 365 → yearOfEra e % 4 = 3 ∧
        (yearOfEra e % 100 = 99 → yearOfEra e = 399)) := by
  obtain ⟨c, q, j, d, hc, hq, hj, hd, hleap, he⟩ := exists_cycles hlow hhigh
  have hcentury : e / 36524 - e / 146096 = c := by
    by_cases hend : e = 146096
    · rw [hend]
      omega
    · have hinner : 1461 * q + 365 * j + d < 36524 := by omega
      have hcenturies : e / 36524 = c := by omega
      rw [hcenturies, Int.ediv_eq_zero_of_lt hlow (by omega), Int.sub_zero]
  -- Of the days of the years of an era, one for each four years is taken away.
  have hahead := cycles_ahead hc hq hj hd fun h => (hleap h).1
  have hcycle : e / 1460 = (24 * c + q + 365 * j + d) / 1460 + (25 * c + q) := by
    have hsplit : e = 24 * c + q + 365 * j + d + 1460 * (25 * c + q) := by linarith
    rw [hsplit, Int.add_mul_ediv_left _ _ (by decide)]
  have hyear : yearOfEra e = 100 * c + 4 * q + j := by
    rw [yearOfEra, Int.ediv_eq_iff_of_pos (by decide)]
    constructor <;> linarith
  have hfour : (100 * c + 4 * q + j) / 4 = 25 * c + q := by omega
  have hhundred : (100 * c + 4 * q + j) / 100 = c := by omega
  rw [hyear]
  refine ⟨d, ?_, by omega, hd, ?_⟩
  · rw [daysBeforeYear, hfour, hhundred]
    omega
  · intro hlast
    obtain ⟨hj, hq⟩ := hleap hlast
    omega

/-! ## Dates -/

/-- There is such a day in such a month of the year. -/
structure IsDate (year : Int) (month day : Nat) : Prop where
  month_pos : 1 ≤ month
  month_le : month ≤ 12
  day_pos : 1 ≤ day
  day_le : day ≤ daysInMonth year month

/-- The days of a year that begins in March lie before a month of it. -/
def daysBeforeMonth (s : Int) : Int := (153 * s + 2) / 5

/-- Every day of a year that begins in March falls into a month of it. -/
theorem exists_month {d : Int} (hd : 0 ≤ d ∧ d ≤ 365) : ∃ s : Nat, s ≤ 11 ∧
    (5 * d + 2) / 153 = s ∧ daysBeforeMonth s ≤ d ∧ d < daysBeforeMonth (s + 1) := by
  refine ⟨((5 * d + 2) / 153).toNat, ?_⟩
  simp only [daysBeforeMonth]
  omega

/-- What the months of a year that begins in March are called. -/
def monthName (s : Nat) : Nat := if s < 10 then s + 3 else s - 9

/-- The civil year that a month of the year belongs to. -/
def civilYear (y : Int) (s : Nat) : Int := y + (if monthName s ≤ 2 then 1 else 0)

theorem daysInMonth_of_ne {month : Nat} (h : month ≠ 2) (year year' : Int) :
    daysInMonth year month = daysInMonth year' month := by
  simp [daysInMonth, h]

/-- A day of a year that begins in March has a date. -/
theorem isDate_of_day {y d : Int} {s : Nat} (hs : s ≤ 11) (hlow : daysBeforeMonth s ≤ d)
    (hhigh : d < daysBeforeMonth (s + 1)) (hd : d ≤ 365)
    (hleap : d = 365 → isLeapYear (y + 1) = true) :
    IsDate (civilYear y s) (monthName s) (d - daysBeforeMonth s + 1).toNat := by
  have hname : 1 ≤ monthName s ∧ monthName s ≤ 12 := by
    unfold monthName
    split <;> omega
  refine ⟨hname.1, hname.2, by omega, ?_⟩
  -- The last month is the only one whose length depends on the year.
  by_cases hlast : s = 11
  · subst hlast
    have hyear : civilYear y 11 = y + 1 := rfl
    have hmonth : daysInMonth (y + 1) (monthName 11) = if isLeapYear (y + 1) then 29 else 28 := rfl
    have hbefore : daysBeforeMonth (11 : Nat) = 337 := rfl
    rw [hyear, hmonth, hbefore]
    by_cases hend : d = 365
    · rw [if_pos (hleap hend)]
      omega
    · split <;> omega
  · have hlength : daysBeforeMonth (s + 1) - daysBeforeMonth s ≤
        daysInMonth (civilYear y s) (monthName s) := by
      have hother : monthName s ≠ 2 := by
        unfold monthName
        split <;> omega
      rw [daysInMonth_of_ne hother _ 1]
      have hall : ∀ s < 11, daysBeforeMonth ((s : Nat) + 1) - daysBeforeMonth s ≤
          daysInMonth 1 (monthName s) := by decide
      exact hall s (by omega)
    omega

/-- The date of a day, by its era, its year and its month. -/
theorem civilFromDays_eq (days : Int) : ∃ (era y d : Int) (s : Nat),
    days + 719468 = era * 146097 + (daysBeforeYear y + d) ∧ (0 ≤ y ∧ y ≤ 399) ∧
    (0 ≤ d ∧ d ≤ 365) ∧ (d = 365 → y % 4 = 3 ∧ (y % 100 = 99 → y = 399)) ∧
    s ≤ 11 ∧ daysBeforeMonth s ≤ d ∧ d < daysBeforeMonth (s + 1) ∧
    civilFromDays days =
      (civilYear (y + era * 400) s, monthName s, (d - daysBeforeMonth s + 1).toNat) := by
  have hera : Int.fdiv (days + 719468) 146097 = (days + 719468) / 146097 :=
    Int.fdiv_eq_ediv_of_nonneg _ (by decide)
  let era := (days + 719468) / 146097
  let e := days + 719468 - era * 146097
  obtain ⟨d, he, hy, hd, hleap⟩ := yearOfEra_spec (e := e) (by omega) (by omega)
  obtain ⟨s, hs, hmonth, hlow, hhigh⟩ := exists_month hd
  refine ⟨era, yearOfEra e, d, s, by omega, hy, hd, hleap, hs, hlow, hhigh, ?_⟩
  have hday : e - daysBeforeYear (yearOfEra e) = d := by omega
  have hcivil : civilFromDays days =
      let shifted := (5 * (e - daysBeforeYear (yearOfEra e)) + 2) / 153
      let month := if shifted < 10 then shifted + 3 else shifted - 9
      (yearOfEra e + era * 400 + (if month ≤ 2 then 1 else 0), month.toNat,
        (e - daysBeforeYear (yearOfEra e) - daysBeforeMonth shifted + 1).toNat) := by
    unfold civilFromDays
    simp only [hera]
    rfl
  have hname : (if (s : Int) < 10 then (s : Int) + 3 else s - 9) = monthName s := by
    unfold monthName
    split_ifs <;> omega
  have hyear : yearOfEra e + era * 400 + (if (monthName s : Int) ≤ 2 then 1 else 0) =
      civilYear (yearOfEra e + era * 400) s := by
    unfold civilYear
    split_ifs <;> omega
  rw [hcivil, hday, hmonth]
  simp only [hname, hyear, Int.toNat_natCast]

/-- The date of a day leads back to it. -/
theorem daysFromCivil_eq {era y d : Int} {s : Nat} (hy : 0 ≤ y ∧ y ≤ 399) (hs : s ≤ 11)
    (hd : daysBeforeMonth s ≤ d) :
    daysFromCivil (civilYear (y + era * 400) s) (monthName s) (d - daysBeforeMonth s + 1).toNat =
      era * 146097 + (daysBeforeYear y + d) - 719468 := by
  have hstart : (if monthName s ≤ 2 then civilYear (y + era * 400) s - 1
      else civilYear (y + era * 400) s) = y + era * 400 := by
    unfold civilYear
    split <;> omega
  have hera : Int.fdiv (y + era * 400) 400 = era := by
    rw [Int.fdiv_eq_ediv_of_nonneg _ (by decide)]
    omega
  have hmonth : (monthName s + 9) % 12 = s := by
    unfold monthName
    split <;> omega
  have hday : ((d - daysBeforeMonth s + 1).toNat : Int) = d - daysBeforeMonth s + 1 :=
    Int.toNat_of_nonneg (by omega)
  unfold daysFromCivil
  simp only [hstart, hera, hmonth, hday]
  unfold daysBeforeYear daysBeforeMonth
  omega

/-- Every day has a date. -/
theorem civilFromDays_isDate (days : Int) :
    IsDate (civilFromDays days).1 (civilFromDays days).2.1 (civilFromDays days).2.2 := by
  obtain ⟨era, y, d, s, -, hy, hd, hleap, hs, hlow, hhigh, hcivil⟩ := civilFromDays_eq days
  rw [hcivil]
  refine isDate_of_day hs hlow hhigh hd.2 fun hlast => ?_
  obtain ⟨hfour, hhundred⟩ := hleap hlast
  have hdiv : (y + era * 400 + 1) % 4 = 0 := by omega
  by_cases hcentury : y % 100 = 99
  · have hera : (y + era * 400 + 1) % 400 = 0 := by
      have hend := hhundred hcentury
      omega
    simp [isLeapYear, hdiv, hera]
  · have hinner : (y + era * 400 + 1) % 100 ≠ 0 := by omega
    simp [isLeapYear, hdiv, hinner]

/-- The date of a day leads back to the day. -/
theorem daysFromCivil_civilFromDays (days : Int) :
    daysFromCivil (civilFromDays days).1 (civilFromDays days).2.1 (civilFromDays days).2.2 =
      days := by
  obtain ⟨era, y, d, s, hdays, hy, hd, -, hs, hlow, -, hcivil⟩ := civilFromDays_eq days
  rw [hcivil]
  dsimp only
  rw [daysFromCivil_eq hy hs hlow]
  omega

/-- The days of the calendar are those of its years. -/
theorem year_civilFromDays {days : Int} (hlow : daysFromCivil minYear 1 1 ≤ days)
    (hhigh : days ≤ daysFromCivil maxYear 12 31) :
    minYear ≤ (civilFromDays days).1 ∧ (civilFromDays days).1 ≤ maxYear := by
  obtain ⟨era, y, d, s, hdays, hy, hd, -, hs, hmonth, hmonth', hcivil⟩ := civilFromDays_eq days
  have hfirst : daysFromCivil minYear 1 1 = -96465292 := by decide
  have hlast : daysFromCivil maxYear 12 31 = 95026236 := by decide
  rw [hfirst] at hlow
  rw [hlast] at hhigh
  -- The bounds lie within the eras -656 and 655, in the years 256 and 142 of these.
  have hbefore : 0 ≤ daysBeforeYear y + d ∧ daysBeforeYear y + d ≤ 146096 := by
    unfold daysBeforeYear
    omega
  have hera : -656 ≤ era ∧ era ≤ 655 := by omega
  have hmarch : 306 ≤ d → monthName s ≤ 2 := by
    intro hd
    unfold daysBeforeMonth at hmonth'
    unfold monthName
    split <;> omega
  have hjanuary : d ≤ 305 → ¬monthName s ≤ 2 := by
    intro hd
    unfold daysBeforeMonth at hmonth
    unfold monthName
    split <;> omega
  have hfirstYear : era = -656 → 256 ≤ y ∧ (y = 256 → 306 ≤ d) := by
    unfold daysBeforeYear at hdays
    omega
  have hlastYear : era = 655 → y ≤ 142 ∧ (y = 142 → d ≤ 305) := by
    unfold daysBeforeYear at hdays
    omega
  rw [hcivil]
  unfold civilYear minYear maxYear
  dsimp only
  split <;> omega

end Marketplace.Instant
