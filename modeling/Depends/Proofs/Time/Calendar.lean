import Depends.Time.Stamp

/-!
The calendar. Days are counted in cycles of years that begin in March, so that the leap day comes last:
eras of 400 years, centuries, cycles of four years, years and days (`MarchDay`). In this form the date of a
day is read off by division, is a date of the calendar, leads back to the day, and later days have later
dates.
-/
namespace Depends

/-- A day by its era, the century in the era, the cycle of four years in the century, the year in the cycle
and the day in the year. The last day of a year with 366 days is that of a leap year. -/
structure MarchDay where
  era : Int
  century : Int
  cycle : Int
  year : Int
  day : Int
  century_range : 0 ≤ century ∧ century ≤ 3
  cycle_range : 0 ≤ cycle ∧ cycle ≤ 24
  year_range : 0 ≤ year ∧ year ≤ 3
  day_range : 0 ≤ day ∧ day ≤ 365
  leap : day = 365 → year = 3 ∧ (cycle < 24 ∨ century = 3)

namespace MarchDay

/-- The days from the start of the era. -/
def dayOfEra (m : MarchDay) : Int := 36524 * m.century + 1461 * m.cycle + 365 * m.year + m.day

/-- The days since 1970. -/
def number (m : MarchDay) : Int := 146097 * m.era + m.dayOfEra - 719468

/-- The year of the era. -/
def yearOfEra (m : MarchDay) : Int := 100 * m.century + 4 * m.cycle + m.year

/-- The year in which the March before the day lies. -/
def marchYear (m : MarchDay) : Int := 400 * m.era + m.yearOfEra

/-- The months since March. -/
def shifted (m : MarchDay) : Int := (5 * m.day + 2) / 153

/-- The month. -/
def month (m : MarchDay) : Int := if m.shifted < 10 then m.shifted + 3 else m.shifted - 9

/-- The year of the calendar. -/
def calendarYear (m : MarchDay) : Int := if m.month ≤ 2 then m.marchYear + 1 else m.marchYear

/-- The day of the month. -/
def dayOfMonth (m : MarchDay) : Int := m.day - (153 * m.shifted + 2) / 5 + 1

theorem exists_number (days : Int) : ∃ m : MarchDay, m.number = days := by
  obtain ⟨e,day⟩ : ∃ e, e = (days + 719468) % 146097 := ⟨_,rfl⟩
  have low : 0 ≤ e ∧ e < 146097 := by omega
  -- The era has one day more than four centuries, and a cycle one day more than four years.
  by_cases last : e = 146096
  · refine ⟨⟨(days + 719468) / 146097,3,24,3,365,by omega,by omega,by omega,by omega,by omega⟩,?_⟩
    simp only [number,dayOfEra]
    omega
  · by_cases leap : e % 36524 % 1461 = 1460
    · refine ⟨⟨(days + 719468) / 146097,e / 36524,e % 36524 / 1461,3,365,
        by omega,by omega,by omega,by omega,by omega⟩,?_⟩
      simp only [number,dayOfEra]
      omega
    · refine ⟨⟨(days + 719468) / 146097,e / 36524,e % 36524 / 1461,e % 36524 % 1461 / 365,e % 36524 % 1461 % 365,
        by omega,by omega,by omega,by omega,by omega⟩,?_⟩
      simp only [number,dayOfEra]
      omega

variable (m : MarchDay)

theorem dayOfEra_range : 0 ≤ m.dayOfEra ∧ m.dayOfEra < 146097 := by
  obtain ⟨-,-,-,-,-,century,cycle,year,day,-⟩ := m
  simp only [dayOfEra]
  omega

theorem yearOfEra_eq :
    (m.dayOfEra - m.dayOfEra / 1460 + m.dayOfEra / 36524 - m.dayOfEra / 146096) / 365 = m.yearOfEra := by
  obtain ⟨era,C,Q,Y,u,century,cycle,year,day,leap⟩ := m
  simp only [dayOfEra,yearOfEra]
  generalize total : 36524 * C + 1461 * Q + 365 * Y + u = e
  have fours : e / 1460 = 25 * C + Q + (24 * C + 365 * Y + Q + u) / 1460 := by omega
  have hundreds : e / 36524 = C + (if e = 146096 then 1 else 0) := by split <;> omega
  have eras : e / 146096 = if e = 146096 then 1 else 0 := by split <;> omega
  have carry : (24 * C + 365 * Y + Q + u) / 1460 = 0 ∨ (24 * C + 365 * Y + Q + u) / 1460 = 1 := by omega
  rw [fours,hundreds,eras]
  rcases carry with none | one
  · rw [none]
    omega
  · rw [one]
    omega

theorem dateOfDays_number : Stamp.dateOfDays m.number = (m.calendarYear,m.month,m.dayOfMonth) := by
  have range := m.dayOfEra_range
  have era : (m.number + 719468) / 146097 = m.era := by
    simp only [number]
    omega
  have dayOfEra : m.number + 719468 - m.era * 146097 = m.dayOfEra := by
    simp only [number]
    omega
  have day : m.dayOfEra - (365 * m.yearOfEra + m.yearOfEra / 4 - m.yearOfEra / 100) = m.day := by
    obtain ⟨-,C,Q,Y,u,century,cycle,year,-,-⟩ := m
    simp only [MarchDay.dayOfEra,yearOfEra]
    omega
  have year : m.yearOfEra + m.era * 400 = m.marchYear := by
    simp only [marchYear]
    omega
  simp only [Stamp.dateOfDays,era,dayOfEra,yearOfEra_eq,day,year]
  rfl

theorem shifted_range : 0 ≤ m.shifted ∧ m.shifted ≤ 11 := by
  have range := m.day_range
  simp only [shifted]
  omega

/-- January and February belong to the calendar year after the March before them. -/
theorem month_cases :
    m.shifted < 10 ∧ m.month = m.shifted + 3 ∧ m.calendarYear = m.marchYear ∨
      10 ≤ m.shifted ∧ m.month = m.shifted - 9 ∧ m.calendarYear = m.marchYear + 1 := by
  have bounds := m.shifted_range
  by_cases early : m.shifted < 10
  · have month : m.month = m.shifted + 3 := if_pos early
    exact .inl ⟨early,month,if_neg (by omega)⟩
  · have month : m.month = m.shifted - 9 := if_neg early
    exact .inr ⟨by omega,month,if_pos (by omega)⟩

theorem month_range : 1 ≤ m.month ∧ m.month ≤ 12 := by
  have range := m.shifted_range
  have cases := m.month_cases
  omega

theorem dayOfMonth_range : 1 ≤ m.dayOfMonth ∧ m.dayOfMonth ≤ 31 := by
  have range := m.day_range
  simp only [dayOfMonth,shifted]
  omega

/-- The leap day falls into a leap year. -/
theorem isLeap_of_last (last : m.day = 365) (known : -1 ≤ m.marchYear) :
    Stamp.isLeap (m.marchYear + 1).toNat = true := by
  obtain ⟨year,turn⟩ := m.leap last
  have cycle := m.cycle_range
  have century := m.century_range
  obtain ⟨n,same⟩ : ∃ n : Nat, (m.marchYear + 1).toNat = n := ⟨_,rfl⟩
  have full : (n : Int) = 400 * m.era + 100 * m.century + 4 * m.cycle + m.year + 1 := by
    simp only [marchYear,yearOfEra] at same known ⊢
    omega
  rw [same,Stamp.isLeap]
  simp only [Bool.and_eq_true,Bool.or_eq_true,beq_iff_eq,bne_iff_ne]
  refine ⟨by omega,?_⟩
  rcases turn with inside | fourth
  · exact .inl (by omega)
  · by_cases inside : m.cycle < 24
    · exact .inl (by omega)
    · exact .inr (by omega)

theorem daysIn_shifted (year : Nat) {shifted : Int} (range : 0 ≤ shifted ∧ shifted ≤ 10) :
    (Stamp.daysIn year (if shifted < 10 then shifted + 3 else shifted - 9).toNat : Int) =
      (153 * (shifted + 1) + 2) / 5 - (153 * shifted + 2) / 5 := by
  have months : shifted = 0 ∨ shifted = 1 ∨ shifted = 2 ∨ shifted = 3 ∨ shifted = 4 ∨ shifted = 5 ∨ shifted = 6 ∨
      shifted = 7 ∨ shifted = 8 ∨ shifted = 9 ∨ shifted = 10 := by omega
  rcases months with rfl | rfl | rfl | rfl | rfl | rfl | rfl | rfl | rfl | rfl | rfl <;> rfl

/-- The day of the month is one that the month has. -/
theorem dayOfMonth_le (known : -1 ≤ m.marchYear) :
    m.dayOfMonth ≤ Stamp.daysIn m.calendarYear.toNat m.month.toNat := by
  have range := m.day_range
  have bounds := m.shifted_range
  have next : m.dayOfMonth ≤ (153 * (m.shifted + 1) + 2) / 5 - (153 * m.shifted + 2) / 5 := by
    simp only [dayOfMonth,shifted]
    omega
  by_cases february : m.shifted = 11
  · rcases m.month_cases with ⟨early,-⟩ | ⟨-,month,year⟩
    · omega
    · rw [month,year,february,show ((11 : Int) - 9).toNat = 2 from rfl,Stamp.daysIn]
      by_cases last : m.day = 365
      · rw [m.isLeap_of_last last known,if_pos rfl]
        simp only [dayOfMonth,february]
        omega
      · have short : m.dayOfMonth ≤ 28 := by
          simp only [dayOfMonth,february]
          omega
        split <;> omega
  · rw [month,daysIn_shifted _ (by omega)]
    exact next

theorem daysOfDate_number : Stamp.daysOfDate m.calendarYear m.month m.dayOfMonth = m.number := by
  have range := m.shifted_range
  have centuries := m.century_range
  have cycles := m.cycle_range
  have years := m.year_range
  have march : (if m.month ≤ 2 then m.calendarYear - 1 else m.calendarYear) = m.marchYear := by
    have cases := m.month_cases
    split <;> omega
  have back : (if m.month > 2 then m.month - 3 else m.month + 9) = m.shifted := by
    have cases := m.month_cases
    split <;> omega
  have era : m.marchYear / 400 = m.era := by
    simp only [marchYear,yearOfEra]
    omega
  simp only [Stamp.daysOfDate,march,back,era,dayOfMonth,number,dayOfEra]
  simp only [marchYear,yearOfEra]
  omega

theorem date_eq {m n : MarchDay} (same : m.number = n.number) :
    m.calendarYear = n.calendarYear ∧ m.month = n.month ∧ m.dayOfMonth = n.dayOfMonth := by
  have dates := m.dateOfDays_number
  rw [same,n.dateOfDays_number] at dates
  simp only [Prod.mk.injEq] at dates
  exact ⟨dates.1.symm,dates.2.1.symm,dates.2.2.symm⟩

/-- Later days have later dates. -/
theorem date_lt {m n : MarchDay} (earlier : m.number < n.number) :
    m.calendarYear < n.calendarYear ∨ m.calendarYear = n.calendarYear ∧
      (m.month < n.month ∨ m.month = n.month ∧ m.dayOfMonth < n.dayOfMonth) := by
  have march : m.marchYear < n.marchYear ∨ m.marchYear = n.marchYear ∧ m.day < n.day := by
    obtain ⟨era,C,Q,Y,u,century,cycle,year,day,leap⟩ := m
    obtain ⟨era',C',Q',Y',u',century',cycle',year',day',leap'⟩ := n
    simp only [number,dayOfEra,marchYear,yearOfEra] at earlier ⊢
    omega
  have range := m.shifted_range
  have range' := n.shifted_range
  have cases := m.month_cases
  have cases' := n.month_cases
  rcases march with years | ⟨years,days⟩
  · omega
  · have months : m.shifted < n.shifted ∨ m.shifted = n.shifted ∧ m.dayOfMonth < n.dayOfMonth := by
      simp only [dayOfMonth,shifted]
      omega
    omega

end MarchDay
end Depends
