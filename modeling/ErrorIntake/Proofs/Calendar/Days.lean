import ErrorIntake.Calendar.Instant

/-!
# Days and dates

The date of a day is counted back to that day, and is a day of the calendar.  Both are read off the
place that a day has in its era of 400 years: centuries, groups of four years and years, all of
which begin in March, are full but for the last of each, which is a day short or a day long.
-/

namespace ErrorIntake.Calendar

/-- A day of an era by century, group of four years, year and day of the year. -/
theorem exists_place {dayOfEra : Int} (low : 0 ≤ dayOfEra) (high : dayOfEra < 146097) :
    ∃ century group year day : Int,
      dayOfEra = 36524 * century + 1461 * group + 365 * year + day ∧
      (0 ≤ century ∧ century ≤ 3) ∧ (0 ≤ group ∧ group ≤ 24) ∧ (0 ≤ year ∧ year ≤ 3) ∧
      (0 ≤ day ∧ day ≤ 365) ∧ (day = 365 → year = 3 ∧ (group < 24 ∨ century = 3)) := by
  have century : ∃ c rest : Int, dayOfEra = 36524 * c + rest ∧ 0 ≤ c ∧ c ≤ 3 ∧ 0 ≤ rest ∧
      rest ≤ 36524 ∧ (rest = 36524 → c = 3) := by
    by_cases last : dayOfEra = 146096
    · exact ⟨3, 36524, by omega⟩
    · exact ⟨dayOfEra / 36524, dayOfEra % 36524, by omega⟩
  obtain ⟨c, rest, split, c0, c3, rest0, rest1, full⟩ := century
  have year : ∃ y day : Int, rest % 1461 = 365 * y + day ∧ 0 ≤ y ∧ y ≤ 3 ∧ 0 ≤ day ∧ day ≤ 365 ∧
      (day = 365 → y = 3 ∧ rest % 1461 = 1460) := by
    by_cases last : rest % 1461 = 1460
    · exact ⟨3, 365, by omega⟩
    · exact ⟨rest % 1461 / 365, rest % 1461 % 365, by omega⟩
  obtain ⟨y, day, within, y0, y3, day0, day1, long⟩ := year
  refine ⟨c, rest / 1461, y, day, by omega, ⟨c0, c3⟩, by omega, ⟨y0, y3⟩, ⟨day0, day1⟩, ?_⟩
  intro last
  obtain ⟨third, end1⟩ := long last
  exact ⟨third, by omega⟩

/-- The years of an era before a day of it, and the day of the year, counted from March. -/
theorem exists_year {dayOfEra : Int} (low : 0 ≤ dayOfEra) (high : dayOfEra < 146097) :
    ∃ year day : Int,
      (dayOfEra - dayOfEra / 1460 + dayOfEra / 36524 - dayOfEra / 146096) / 365 = year ∧
      dayOfEra - (365 * year + year / 4 - year / 100) = day ∧ (0 ≤ year ∧ year < 400) ∧
      (0 ≤ day ∧ day ≤ 365) ∧
      (day = 365 → (year + 1) % 4 = 0 ∧ ((year + 1) % 100 ≠ 0 ∨ (year + 1) % 400 = 0)) := by
  obtain ⟨c, g, y, day, place, ⟨c0, c3⟩, ⟨g0, g24⟩, ⟨y0, y3⟩, ⟨day0, day1⟩, long⟩ :=
    exists_place low high
  have groups : (100 * c + 4 * g + y) / 4 = 25 * c + g := by omega
  have centuries : (100 * c + 4 * g + y) / 100 = c := by omega
  -- The last day of an era would count as one of a fifth century.
  have corrected : dayOfEra / 36524 - dayOfEra / 146096 = c := by
    by_cases last : dayOfEra = 146096
    · rw [last] at place ⊢
      omega
    · omega
  have leapDays : dayOfEra / 1460 =
      25 * c + g + if 1460 ≤ 24 * c + g + 365 * y + day then 1 else 0 := by
    split <;> omega
  refine ⟨100 * c + 4 * g + y, day, ?_, ?_, by omega, ⟨day0, day1⟩, ?_⟩
  · split at leapDays <;> omega
  · omega
  · intro last
    obtain ⟨third, end1⟩ := long last
    omega

namespace Date

/-- The months from March on, each with the days of the year before it and its last day. -/
theorem exists_month {dayOfYear : Int} (low : 0 ≤ dayOfYear) (high : dayOfYear ≤ 365) :
    ∃ month day : Int, (5 * dayOfYear + 2) / 153 = month ∧
      dayOfYear - (153 * month + 2) / 5 + 1 = day ∧ (0 ≤ month ∧ month ≤ 11) ∧
      (1 ≤ day ∧ day ≤ 31) ∧
      (month = 1 ∨ month = 3 ∨ month = 6 ∨ month = 8 → day ≤ 30) ∧
      (month = 11 → day ≤ 29 ∧ (day = 29 → dayOfYear = 365)) := by
  refine ⟨_, _, rfl, rfl, by omega, by omega, ?_, by omega⟩
  omega

/-- The date of a day as its parts are counted. -/
theorem ofDays_parts (days : Int) :
    ∃ era year dayOfYear month day : Int,
      days + 719468 = era * 146097 + (365 * year + year / 4 - year / 100) + dayOfYear ∧
      dayOfYear = (153 * month + 2) / 5 + day - 1 ∧
      ofDays days = ⟨year + era * 400 + if (month + 2) % 12 + 1 ≤ 2 then 1 else 0,
        ((month + 2) % 12 + 1).toNat, day.toNat⟩ ∧
      (0 ≤ year ∧ year < 400) ∧ (0 ≤ month ∧ month ≤ 11) ∧ (1 ≤ day ∧ day ≤ 31) ∧
      (month = 1 ∨ month = 3 ∨ month = 6 ∨ month = 8 → day ≤ 30) ∧
      (month = 11 → day ≤ 29 ∧ (day = 29 →
        (year + 1) % 4 = 0 ∧ ((year + 1) % 100 ≠ 0 ∨ (year + 1) % 400 = 0))) := by
  have low : 0 ≤ (days + 719468) % 146097 := Int.emod_nonneg _ (by decide)
  have high : (days + 719468) % 146097 < 146097 := Int.emod_lt_of_pos _ (by decide)
  obtain ⟨year, dayOfYear, isYear, isDay, years, ⟨day0, day1⟩, leap⟩ := exists_year low high
  obtain ⟨month, day, isMonth, isDayOfMonth, months, days', short, february⟩ :=
    exists_month day0 day1
  refine ⟨(days + 719468) / 146097, year, dayOfYear, month, day, by omega, by omega, ?_, years,
    months, days', short, fun last => ?_⟩
  · simp only [ofDays, isYear, isDay, isMonth, isDayOfMonth]
  · obtain ⟨few, long⟩ := february last
    exact ⟨few, fun isLast => leap (long isLast)⟩

/-- The date of a day is that day. -/
theorem toDays_ofDays (days : Int) : (ofDays days).toDays = days := by
  obtain ⟨era, year, dayOfYear, month, day, counted, ofYear, parts, years, months, bounds, -, -⟩ :=
    ofDays_parts days
  have dayNumber : (day.toNat : Int) = day := by omega
  have monthNumber : (((month + 2) % 12 + 1).toNat : Int) = (month + 2) % 12 + 1 := by omega
  have fromMarch : ((month + 2) % 12 + 1 + 9) % 12 = month := by omega
  have marchYear : (if ((month + 2) % 12 + 1).toNat ≤ 2 then
      (year + era * 400 + if (month + 2) % 12 + 1 ≤ 2 then 1 else 0) - 1 else
      year + era * 400 + if (month + 2) % 12 + 1 ≤ 2 then 1 else 0) = year + era * 400 := by
    split <;> split <;> omega
  have inEra : (year + era * 400) % 400 = year := by omega
  have eras : (year + era * 400) / 400 = era := by omega
  rw [parts, toDays]
  simp only [marchYear, monthNumber, dayNumber, fromMarch, inEra, eras]
  omega

/-- A year has the leap day of its place in its era. -/
theorem isLeapYear_add (year era : Int) : isLeapYear (year + era * 400) = isLeapYear year := by
  have fours : (year + era * 400) % 4 = year % 4 := by omega
  have centuries : (year + era * 400) % 100 = year % 100 := by omega
  have place : (year + era * 400) % 400 = year % 400 := by omega
  rw [isLeapYear, isLeapYear, fours, centuries, place]

/-- The date of a day is a day of the calendar if its year can be one. -/
theorem isValid_ofDays {days : Int} (first : firstYear ≤ (ofDays days).year)
    (last : (ofDays days).year ≤ lastYear) : (ofDays days).isValid = true := by
  obtain ⟨era, year, dayOfYear, month, day, -, -, parts, years, months, bounds, short, february⟩ :=
    ofDays_parts days
  have fits : (ofDays days).day ≤ daysInMonth (ofDays days).year (ofDays days).month := by
    rw [parts, daysInMonth]
    dsimp only
    by_cases isFebruary : month = 11
    · subst isFebruary
      obtain ⟨few, leap⟩ := february rfl
      show day.toNat ≤ if isLeapYear (year + era * 400 + 1) then 29 else 28
      split
      · omega
      · next common =>
        have notLast : day ≠ 29 := by
          intro isLast
          apply common
          rw [show year + era * 400 + 1 = year + 1 + era * 400 by omega, isLeapYear_add]
          simpa [isLeapYear] using leap isLast
        omega
    · split
      · omega
      · split <;> omega
  have monthRange : 1 ≤ (ofDays days).month ∧ (ofDays days).month ≤ 12 ∧ 1 ≤ (ofDays days).day := by
    rw [parts]
    dsimp only
    omega
  simp only [isValid, Bool.and_eq_true, decide_eq_true_eq]
  exact ⟨⟨⟨⟨⟨first, last⟩, monthRange.1⟩, monthRange.2.1⟩, monthRange.2.2⟩, fits⟩

/-- Months and days of the calendar have two digits. -/
theorem two_digits_of_isValid {d : Date} (valid : d.isValid = true) :
    d.month < 100 ∧ d.day < 100 := by
  simp only [isValid, Bool.and_eq_true, decide_eq_true_eq] at valid
  obtain ⟨⟨⟨⟨-, -⟩, month⟩, -⟩, day⟩ := valid
  have most : daysInMonth d.year d.month ≤ 31 := by
    unfold daysInMonth
    split
    · split <;> omega
    · split <;> omega
  omega

end Date

end ErrorIntake.Calendar
