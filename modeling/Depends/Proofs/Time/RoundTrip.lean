import Depends.Proofs.Time.TextOrder

/-!
Reading back the text of a stamp. Between the years 0 and 9999 a text without offset is read as the stamp
that it tells, to the nanosecond (`ofText?_text`). The text of another year cannot be read (`ofText?_untold`).
-/
namespace Depends.Stamp

open Digits

theorem digits?_fixed {places n : Nat} (fits : n < 10 ^ places) (rest : List Char) :
    digits? places (fixed places n ++ rest) = some (n,rest) := by
  have taken : (fixed places n ++ rest).take places = fixed places n := by
    rw [List.take_append_of_le_length (by simp),List.take_of_length_le (by simp)]
  have dropped : (fixed places n ++ rest).drop places = rest := by
    rw [List.drop_append_of_le_length (by simp),List.drop_of_length_le (by simp),List.nil_append]
  have all : (fixed places n).all Char.isDigit = true := List.all_eq_true.mpr fun c member => isDigit_of_mem_fixed member
  have number : (fixed places n).foldl (fun n c => n * 10 + (c.toNat - 48)) 0 = n := value_fixed fits
  simp only [digits?,taken,dropped,all,number,length_fixed,decide_true,Bool.and_self,↓reduceIte]

theorem literal?_self (c : Char) (rest : List Char) : literal? c (c :: rest) = some rest := if_pos rfl

theorem date?_chars (date : MarchDay) (low : 0 ≤ date.calendarYear) (high : date.calendarYear ≤ 9999) (rest : List Char) :
    date? (fixed 4 date.calendarYear.toNat ++ '-' :: (fixed 2 date.month.toNat ++ '-' ::
      (fixed 2 date.dayOfMonth.toNat ++ rest))) = some (date.number,rest) := by
  have month := date.month_range
  have day := date.dayOfMonth_range
  have march : -1 ≤ date.marchYear := by
    have cases := date.month_cases
    omega
  have fits := date.dayOfMonth_le march
  have back := date.daysOfDate_number
  have valid : (decide (1 ≤ date.month.toNat) && decide (date.month.toNat ≤ 12) && decide (1 ≤ date.dayOfMonth.toNat) &&
      decide (date.dayOfMonth.toNat ≤ daysIn date.calendarYear.toNat date.month.toNat)) = true := by
    simp only [Bool.and_eq_true,decide_eq_true_eq]
    omega
  have numbers : daysOfDate (date.calendarYear.toNat : Int) (date.month.toNat : Int) (date.dayOfMonth.toNat : Int) =
      date.number := by
    rw [Int.toNat_of_nonneg (by omega),Int.toNat_of_nonneg (by omega),Int.toNat_of_nonneg (by omega),back]
  rw [date?,digits?_fixed (by omega)]
  simp only [Option.bind_eq_bind,Option.bind_some,literal?_self]
  rw [digits?_fixed (by omega)]
  simp only [Option.bind_some,literal?_self]
  rw [digits?_fixed (by omega)]
  simp only [Option.bind_some,valid,↓reduceIte,numbers]
  rfl

/-- The fraction is read as its nanoseconds. -/
theorem fraction?_ending (s : Stamp) : fraction? s.ending = (s.part,['Z']) := by
  unfold ending
  by_cases whole : s.fractionDigits = []
  · have zero : s.part = 0 := by
      have value := value_trimmed (fixed 9 s.part)
      rw [show trimmed (fixed 9 s.part) = [] from whole,value_fixed s.part_lt] at value
      simpa [Digits.value] using value.symm
    simp [whole,fraction?,zero]
  · have digits : ∀ c ∈ s.fractionDigits, c.isDigit = true := fun c member => isDigit_of_mem_fractionDigits member
    have taken : (s.fractionDigits ++ ['Z']).takeWhile Char.isDigit = s.fractionDigits := by
      rw [List.takeWhile_append_of_pos digits]
      simp
    have length : s.fractionDigits.length ≤ 9 := by
      have shorter := (isPrefix_trimmed (fixed 9 s.part)).length_le
      rwa [length_fixed] at shorter
    have number : s.fractionDigits.foldl (fun n c => n * 10 + (c.toNat - 48)) 0 * 10 ^ (9 - s.fractionDigits.length) =
        s.part := by
      have value := value_trimmed (fixed 9 s.part)
      rw [length_fixed,value_fixed s.part_lt] at value
      exact value
    simp only [whole,↓reduceIte,List.cons_append,fraction?,taken,List.take_of_length_le length]
    simpa [whole] using number

/-- A text without offset is read as the stamp that it tells. -/
theorem ofText?_text {s : Stamp} (plain : s.offset = 0) (told : s.Tellable) : ofText? s.text = some s := by
  obtain ⟨low,high⟩ := told
  obtain ⟨c,told,calendar⟩ := s.exists_clock
  have hour := c.hour_range
  have minute := c.minute_range
  have second := c.second_range
  have tellable : c.Tellable := by
    rw [Clock.Tellable,calendar]
    omega
  have shape : s.text.toList = fixed 4 c.date.calendarYear.toNat ++ '-' :: (fixed 2 c.date.month.toNat ++ '-' ::
      (fixed 2 c.date.dayOfMonth.toNat ++ 'T' :: (fixed 2 c.hour.toNat ++ ':' :: (fixed 2 c.minute.toNat ++ ':' ::
        (fixed 2 c.second.toNat ++ s.ending))))) := by
    rw [toList_text plain,c.clock_chars s told plain tellable,Clock.chars]
    simp only [List.append_assoc,List.cons_append]
  have valid : (decide (c.hour.toNat < 24) && decide (c.minute.toNat < 60) && decide (c.second.toNat < 60) &&
      ([] : List Char).isEmpty) = true := by
    simp only [Bool.and_eq_true,decide_eq_true_eq,List.isEmpty_nil,and_true]
    omega
  rw [ofText?,shape,date?_chars c.date (by omega) (by omega)]
  simp only [Option.bind_eq_bind,Option.bind_some,literal?_self,shortDigits?]
  rw [digits?_fixed (by omega)]
  simp only [Option.bind_some,literal?_self]
  rw [digits?_fixed (by omega)]
  simp only [Option.bind_some,literal?_self]
  rw [digits?_fixed (by omega)]
  simp only [Option.bind_some,fraction?_ending,zone?,valid,↓reduceIte]
  have seconds : c.date.number * 86400 + ((c.hour.toNat * 3600 + c.minute.toNat * 60 + c.second.toNat : Nat) : Int) - 0 =
      s.seconds := by
    rw [← told,Clock.seconds]
    omega
  rw [seconds,← s.nanoseconds_eq,← plain]
  rfl

/-- A year with a sign or with more than four digits is not read as a year. -/
theorem ofText?_untold {s : Stamp} (plain : s.offset = 0) (untold : ¬ s.Tellable) : ofText? s.text = none := by
  obtain ⟨more,text⟩ := toList_text_year plain
  have unread : date? s.text.toList = none := by
    rw [text]
    by_cases negative : s.year < 0
    · have sign : (places 4 s.year).toList = '-' :: (Number.padded 4 s.year.natAbs).toList := by
        simp [places,negative]
      simp [sign,date?,digits?]
    · have large : 9999 < s.year := by
        by_contra small
        exact untold ⟨Int.not_lt.mp negative,Int.not_lt.mp small⟩
      obtain ⟨c,rest,digits,digit⟩ := toList_places_large large
      have bounds := firstFour_bounds (n := s.year.toNat) (by omega)
      have other : '-' ≠ c := Char.ne_of_lt (hyphen_lt_digit digit)
      rw [digits,List.append_assoc,date?,digits?_fixed (by omega)]
      simp [literal?,other]
  rw [ofText?,unread]
  rfl

end Depends.Stamp
