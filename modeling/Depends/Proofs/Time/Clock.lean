import Depends.Proofs.Text.Digits
import Depends.Proofs.Time.Calendar

/-!
Clock readings. A point in time, told to the second, is a day with an hour, a minute and a second. Between the
years 0 and 9999 its text has a fixed shape, and the order of such texts is the order of time
(`Clock.chars_lt`).
-/
namespace Depends

open Digits

/-- A day with a time of the day. -/
structure Clock where
  date : MarchDay
  hour : Int
  minute : Int
  second : Int
  hour_range : 0 ≤ hour ∧ hour < 24
  minute_range : 0 ≤ minute ∧ minute < 60
  second_range : 0 ≤ second ∧ second < 60

namespace Clock

/-- The seconds since 1970. -/
def seconds (c : Clock) : Int := c.date.number * 86400 + c.hour * 3600 + c.minute * 60 + c.second

theorem exists_seconds (seconds : Int) : ∃ c : Clock, c.seconds = seconds := by
  obtain ⟨date,number⟩ := MarchDay.exists_number (seconds / 86400)
  refine ⟨⟨date,seconds % 86400 / 3600,seconds % 86400 / 60 % 60,seconds % 60,by omega,by omega,by omega⟩,?_⟩
  simp only [Clock.seconds,number]
  omega

/-- The year can be told with four digits. -/
def Tellable (c : Clock) : Prop := 0 ≤ c.date.calendarYear ∧ c.date.calendarYear ≤ 9999

/-- The text of a clock reading whose year has four digits. -/
def chars (c : Clock) : List Char :=
  fixed 4 c.date.calendarYear.toNat ++ '-' :: (fixed 2 c.date.month.toNat ++ '-' :: (fixed 2 c.date.dayOfMonth.toNat ++
    'T' :: (fixed 2 c.hour.toNat ++ ':' :: (fixed 2 c.minute.toNat ++ ':' :: (fixed 2 c.second.toNat)))))

variable (c : Clock)

@[simp] theorem length_chars : c.chars.length = 19 := by simp [chars]

theorem places_natural {count : Nat} {n : Int} (natural : 0 ≤ n) :
    (Stamp.places count n).toList = (Number.padded count n.toNat).toList := by
  have sign : ¬ n < 0 := by omega
  have size : n.natAbs = n.toNat := by omega
  simp [Stamp.places,sign,size]

theorem places_fixed {count : Nat} {n : Int} (some : 0 < count) (natural : 0 ≤ n) (fits : n.toNat < 10 ^ count) :
    (Stamp.places count n).toList = fixed count n.toNat := by
  rw [places_natural natural,toList_padded some fits]

/-- The clock part of the text of a stamp, with the year as it comes. -/
theorem clock_eq (s : Stamp) (told : c.seconds = s.seconds) (plain : s.offset = 0) :
    s.clock "T" = Stamp.places 4 c.date.calendarYear ++ "-" ++ Stamp.places 2 c.date.month ++ "-" ++
      Stamp.places 2 c.date.dayOfMonth ++ "T" ++ Stamp.places 2 c.hour ++ ":" ++ Stamp.places 2 c.minute ++ ":" ++
        Stamp.places 2 c.second := by
  have hour := c.hour_range
  have minute := c.minute_range
  have second := c.second_range
  simp only [seconds,Stamp.seconds] at told
  have days : (s.nanoseconds / 1000000000 + s.offset) / 86400 = c.date.number := by omega
  have rest : s.nanoseconds / 1000000000 + s.offset - c.date.number * 86400 =
      c.hour * 3600 + c.minute * 60 + c.second := by omega
  have hours : (c.hour * 3600 + c.minute * 60 + c.second) / 3600 = c.hour := by omega
  have minutes : (c.hour * 3600 + c.minute * 60 + c.second) / 60 % 60 = c.minute := by omega
  have left : (c.hour * 3600 + c.minute * 60 + c.second) % 60 = c.second := by omega
  simp only [Stamp.clock,days,rest,hours,minutes,left,MarchDay.dateOfDays_number]

theorem clock_chars (s : Stamp) (told : c.seconds = s.seconds) (plain : s.offset = 0) (tellable : c.Tellable) :
    (s.clock "T").toList = c.chars := by
  have hour := c.hour_range
  have minute := c.minute_range
  have second := c.second_range
  have month := c.date.month_range
  have day := c.date.dayOfMonth_range
  obtain ⟨low,high⟩ := tellable
  rw [clock_eq c s told plain]
  simp only [String.toList_append,chars,List.append_assoc]
  rw [places_fixed (by decide) low (by omega),places_fixed (by decide) (by omega) (by omega),
    places_fixed (by decide) (by omega) (by omega),places_fixed (by decide) (by omega) (by omega),
    places_fixed (by decide) (by omega) (by omega),places_fixed (by decide) (by omega) (by omega)]
  rfl

theorem fixed_append_lt {places m n : Nat} (left : m < 10 ^ places) (right : n < 10 ^ places) (separator : Char)
    (more more' : List Char) :
    fixed places m ++ separator :: more < fixed places n ++ separator :: more' ↔ m < n ∨ m = n ∧ more < more' := by
  have same : fixed places m = fixed places n ↔ m = n := ⟨fixed_injective left right,fun equal => by rw [equal]⟩
  rw [append_lt_append (by simp),fixed_lt left right,same,List.cons_lt_cons_iff]
  simp

/-- Tellable clock readings are ordered as their texts. -/
theorem chars_lt {c c' : Clock} (tellable : c.Tellable) (tellable' : c'.Tellable) :
    c.chars < c'.chars ↔ c.seconds < c'.seconds := by
  have hour := c.hour_range
  have minute := c.minute_range
  have second := c.second_range
  have month := c.date.month_range
  have day := c.date.dayOfMonth_range
  have hour' := c'.hour_range
  have minute' := c'.minute_range
  have second' := c'.second_range
  have month' := c'.date.month_range
  have day' := c'.date.dayOfMonth_range
  obtain ⟨low,high⟩ := tellable
  obtain ⟨low',high'⟩ := tellable'
  unfold chars
  rw [fixed_append_lt (by omega) (by omega),fixed_append_lt (by omega) (by omega),fixed_append_lt (by omega) (by omega),
    fixed_append_lt (by omega) (by omega),fixed_append_lt (by omega) (by omega),fixed_lt (by omega) (by omega)]
  simp only [seconds]
  rcases Int.lt_trichotomy c.date.number c'.date.number with earlier | same | later
  · have dates := MarchDay.date_lt earlier
    omega
  · have dates := MarchDay.date_eq same
    omega
  · have dates := MarchDay.date_lt later
    omega

theorem chars_eq_of_seconds {c c' : Clock} (same : c.seconds = c'.seconds) : c.chars = c'.chars := by
  have hour := c.hour_range
  have minute := c.minute_range
  have second := c.second_range
  have hour' := c'.hour_range
  have minute' := c'.minute_range
  have second' := c'.second_range
  simp only [seconds] at same
  obtain ⟨year,month,day⟩ := MarchDay.date_eq (m := c.date) (n := c'.date) (by omega)
  have times : c.hour = c'.hour ∧ c.minute = c'.minute ∧ c.second = c'.second := by omega
  simp only [chars,year,month,day,times]

theorem chars_eq_iff {c c' : Clock} (tellable : c.Tellable) (tellable' : c'.Tellable) :
    c.chars = c'.chars ↔ c.seconds = c'.seconds := by
  refine ⟨fun same => ?_,chars_eq_of_seconds⟩
  have order := chars_lt tellable tellable'
  have order' := chars_lt tellable' tellable
  rw [same] at order order'
  have first := order.not.mp (List.lt_irrefl _)
  have second := order'.not.mp (List.lt_irrefl _)
  omega

end Clock
end Depends
