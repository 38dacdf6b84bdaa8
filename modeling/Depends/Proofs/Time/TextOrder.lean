import Depends.Proofs.Time.Clock

/-!
The order of stamps as texts. Up to the second it is the order of time. Within a second the zone mark stands
after a fraction of any length, so a fraction sorts after those that continue its digits: such stamps clash,
and all others are in order (`text_lt`). A bound past the year 9999 has more digits than the stamps have and
is misread as one of its first four (`text_le_iff`).
-/
namespace Depends.Stamp

open Digits

/-- The fraction of the second in nanoseconds. -/
def part (s : Stamp) : Nat := (s.nanoseconds % 1000000000).toNat

/-- The digits of the fraction without zeros at the end. -/
def fractionDigits (s : Stamp) : List Char := trimmed (fixed 9 s.part)

/-- The year, told without offset. -/
def year (s : Stamp) : Int := (dateOfDays (s.seconds / 86400)).1

/-- Two times within a second of which one has the digits of the other and more. -/
def Clash (a b : Stamp) : Prop :=
  a.seconds = b.seconds ∧ a.part ≠ b.part ∧
    (a.fractionDigits <+: b.fractionDigits ∨ b.fractionDigits <+: a.fractionDigits)

instance (a b : Stamp) : Decidable (Clash a b) := inferInstanceAs (Decidable (_ ∧ _ ∧ (_ ∨ _)))

theorem Clash.symm {a b : Stamp} (clash : Clash a b) : Clash b a :=
  ⟨clash.1.symm,clash.2.1.symm,clash.2.2.symm⟩

variable {a b s : Stamp}

theorem part_lt (s : Stamp) : s.part < 10 ^ 9 := by
  simp only [part]
  omega

theorem nanoseconds_eq (s : Stamp) : s.nanoseconds = s.seconds * 1000000000 + s.part := by
  simp only [part,seconds]
  omega

/-! ### The fraction and the zone mark -/

/-- What follows the seconds in a text without offset. -/
def ending (s : Stamp) : List Char := (if s.fractionDigits = [] then [] else '.' :: s.fractionDigits) ++ ['Z']

theorem toList_fraction (s : Stamp) :
    s.fraction.toList = if s.fractionDigits = [] then [] else '.' :: s.fractionDigits := by
  have digits : (Number.padded 9 (s.nanoseconds % 1000000000).toNat).toList = fixed 9 s.part :=
    toList_padded (by decide) s.part_lt
  unfold fraction
  simp only [digits]
  rw [show ((fixed 9 s.part).reverse.dropWhile (· == '0')).reverse = s.fractionDigits from rfl]
  by_cases whole : s.fractionDigits = []
  · simp [whole]
  · simp [whole]

theorem toList_text (plain : s.offset = 0) : s.text.toList = (s.clock "T").toList ++ s.ending := by
  simp [text,zone,plain,ending,toList_fraction]

theorem isDigit_of_mem_fractionDigits {c : Char} (member : c ∈ s.fractionDigits) : c.isDigit = true :=
  isDigit_of_mem_fixed ((isPrefix_trimmed _).subset member)

theorem digit_lt_mark {c : Char} (digit : c.isDigit = true) : c < 'Z' := by
  have bound : c.toNat ≤ 57 := by
    simp only [Char.isDigit,Bool.and_eq_true,decide_eq_true_eq] at digit
    exact UInt32.le_iff_toNat_le.mp digit.2
  exact UInt32.lt_iff_toNat_lt.mpr (Nat.lt_of_le_of_lt bound (by decide))

theorem part_eq_of_digits (same : a.fractionDigits = b.fractionDigits) : a.part = b.part := by
  have left := value_trimmed (fixed 9 a.part)
  have right := value_trimmed (fixed 9 b.part)
  rw [length_fixed,value_fixed a.part_lt] at left
  rw [length_fixed,value_fixed b.part_lt] at right
  rw [← left,← right,show trimmed (fixed 9 a.part) = trimmed (fixed 9 b.part) from same]

/-- A fraction that continues the digits of another one is larger and sorts before it. -/
theorem ending_lt_of_continued (differ : a.part ≠ b.part) (continued : a.fractionDigits <+: b.fractionDigits) :
    a.part < b.part ∧ b.ending < a.ending := by
  constructor
  · have bound := value_le_of_continued (by simp) continued
    rw [value_fixed a.part_lt,value_fixed b.part_lt] at bound
    omega
  · obtain ⟨more,continued⟩ := continued
    cases more with
    | nil => exact absurd (part_eq_of_digits (by simpa using continued)) differ
    | cons c more =>
      have digit : c < 'Z' := by
        refine digit_lt_mark (isDigit_of_mem_fractionDigits (s := b) ?_)
        rw [← continued]
        simp
      have filled : b.fractionDigits ≠ [] := by simp [← continued]
      by_cases whole : a.fractionDigits = []
      · have mark : ('.' : Char) < 'Z' := by decide
        simp [ending,whole,filled,List.cons_lt_cons_iff,mark]
      · simp only [ending,whole,↓reduceIte,← continued]
        have different : c ≠ 'Z' := by
          rintro rfl
          exact Char.lt_irrefl _ digit
        have sorted : ('.' :: a.fractionDigits) ++ c :: (more ++ ['Z']) < ('.' :: a.fractionDigits) ++ 'Z' :: [] :=
          (lt_of_difference different).mpr digit
        simpa using sorted

/-- Fractions of which neither continues the other are in order. -/
theorem ending_lt_of_separate (first : ¬ a.fractionDigits <+: b.fractionDigits)
    (second : ¬ b.fractionDigits <+: a.fractionDigits) : a.ending < b.ending ↔ a.part < b.part := by
  obtain ⟨same,c,d,more,more',different,left,right⟩ :=
    first_difference a.fractionDigits b.fractionDigits |>.resolve_left first |>.resolve_left second
  have parts : fixed 9 a.part < fixed 9 b.part ↔ c < d := by
    rw [trimmed_append (fixed 9 a.part),trimmed_append (fixed 9 b.part),
      show trimmed (fixed 9 a.part) = same ++ c :: more from left,
      show trimmed (fixed 9 b.part) = same ++ d :: more' from right,List.append_assoc,List.append_assoc]
    exact lt_of_difference different
  have endings : a.ending < b.ending ↔ c < d := by
    have split : ∀ (e : Char) (rest : List Char), ('.' :: (same ++ e :: rest)) ++ ['Z'] =
        ('.' :: same) ++ e :: (rest ++ ['Z']) := by simp
    simp only [ending,left,right,List.append_eq_nil_iff,List.cons_ne_nil,and_false,↓reduceIte,split]
    exact lt_of_difference different
  rw [endings,← parts,fixed_lt a.part_lt b.part_lt]

/-- Within a second a fraction sorts as a number, unless the stamps clash: then it is the other way round. -/
theorem ending_lt (seconds : a.seconds = b.seconds) :
    a.ending < b.ending ↔ if Clash a b then b.part < a.part else a.part < b.part := by
  by_cases parts : a.part = b.part
  · have digits : a.fractionDigits = b.fractionDigits := by rw [fractionDigits,fractionDigits,parts]
    have apart : ¬ Clash a b := fun clash => clash.2.1 parts
    rw [if_neg apart,ending,ending,digits]
    exact iff_of_false (List.lt_irrefl _) (by omega)
  · by_cases first : a.fractionDigits <+: b.fractionDigits
    · obtain ⟨smaller,sorted⟩ := ending_lt_of_continued parts first
      rw [if_pos ⟨seconds,parts,.inl first⟩]
      exact iff_of_false (List.lt_asymm sorted) (by omega)
    · by_cases second : b.fractionDigits <+: a.fractionDigits
      · obtain ⟨smaller,sorted⟩ := ending_lt_of_continued (Ne.symm parts) second
        rw [if_pos ⟨seconds,parts,.inr second⟩]
        exact iff_of_true sorted smaller
      · have apart : ¬ Clash a b := fun clash => clash.2.2.elim first second
        rw [if_neg apart,ending_lt_of_separate first second]

/-! ### Whole texts -/

/-- The year can be told with four digits. -/
def Tellable (s : Stamp) : Prop := 0 ≤ s.year ∧ s.year ≤ 9999

theorem exists_clock (s : Stamp) : ∃ c : Clock, c.seconds = s.seconds ∧ c.date.calendarYear = s.year := by
  obtain ⟨c,told⟩ := Clock.exists_seconds s.seconds
  have hour := c.hour_range
  have minute := c.minute_range
  have second := c.second_range
  have days : s.seconds / 86400 = c.date.number := by
    rw [← told,Clock.seconds]
    omega
  refine ⟨c,told,?_⟩
  rw [year,days,MarchDay.dateOfDays_number]

theorem seconds_lt_of_year (earlier : a.year < b.year) : a.seconds < b.seconds := by
  obtain ⟨c,told,calendar⟩ := a.exists_clock
  obtain ⟨c',told',calendar'⟩ := b.exists_clock
  have hour := c.hour_range
  have minute := c.minute_range
  have second := c.second_range
  have hour' := c'.hour_range
  have minute' := c'.minute_range
  have second' := c'.second_range
  rw [← told,← told',Clock.seconds,Clock.seconds]
  rcases Int.lt_trichotomy c.date.number c'.date.number with before | same | after
  · omega
  · have dates := MarchDay.date_eq same
    omega
  · have dates := MarchDay.date_lt after
    omega

/-- Texts without offset are in the order of time, unless the times clash: then they are the other way
round. -/
theorem text_lt (plain : a.offset = 0) (plain' : b.offset = 0) (tellable : a.Tellable) (tellable' : b.Tellable) :
    a.text < b.text ↔ if Clash a b then b.nanoseconds < a.nanoseconds else a.nanoseconds < b.nanoseconds := by
  obtain ⟨c,told,calendar⟩ := a.exists_clock
  obtain ⟨c',told',calendar'⟩ := b.exists_clock
  have tells : c.Tellable := by rw [Clock.Tellable,calendar]; exact tellable
  have tells' : c'.Tellable := by rw [Clock.Tellable,calendar']; exact tellable'
  have bound := a.part_lt
  have bound' := b.part_lt
  rw [String.lt_iff,toList_text plain,toList_text plain',c.clock_chars a told plain tells,
    c'.clock_chars b told' plain' tells',append_lt_append (by simp),Clock.chars_lt tells tells',
    Clock.chars_eq_iff tells tells',told,told',a.nanoseconds_eq,b.nanoseconds_eq]
  by_cases seconds : a.seconds = b.seconds
  · rw [ending_lt seconds,seconds]
    split <;> omega
  · have apart : ¬ Clash a b := fun clash => seconds clash.1
    rw [if_neg apart]
    simp only [seconds,false_and,or_false]
    omega

/-! ### Bounds of any year -/

/-- The first four digits of a number. -/
def firstFour (n : Nat) : Nat := if n < 10000 then n else firstFour (n / 10)

/-- A bound is misread for a stamp: they clash, or the bound has a year of more than four digits, of which the
first four are below the year of the stamp. -/
def Misread (since s : Stamp) : Prop :=
  Clash since s ∨ 9999 < since.year ∧ firstFour since.year.toNat < s.year

instance (since s : Stamp) : Decidable (Misread since s) := inferInstanceAs (Decidable (_ ∨ _ ∧ _))

theorem firstFour_bounds {n : Nat} (large : 1000 ≤ n) : 1000 ≤ firstFour n ∧ firstFour n < 10000 := by
  fun_induction firstFour n with
  | case1 n small => exact ⟨large,small⟩
  | case2 n other ih => exact ih (by omega)

theorem toDigits_firstFour {n : Nat} (large : 10000 ≤ n) :
    ∃ c more, Nat.toDigits 10 n = fixed 4 (firstFour n) ++ c :: more ∧ c.isDigit = true := by
  induction n using Nat.strongRecOn with
  | ind n ih =>
    have last : (Nat.digitChar (n % 10)).isDigit = true := by
      rw [Nat.isDigit_digitChar]
      exact decide_eq_true (Nat.mod_lt _ (by decide))
    rw [firstFour,if_neg (by omega),Nat.toDigits_of_base_le (by decide) (by omega)]
    by_cases enough : 10000 ≤ n / 10
    · obtain ⟨c,more,digits,digit⟩ := ih (n / 10) (by omega) enough
      exact ⟨c,more ++ [Nat.digitChar (n % 10)],by rw [digits]; simp,digit⟩
    · have four : (Nat.toDigits 10 (n / 10)).length = 4 := by
        have low := (Nat.length_toDigits_le_iff (b := 10) (n := n / 10) (k := 3) (by decide) (by decide)).not.mpr (by omega)
        have high := (Nat.length_toDigits_le_iff (b := 10) (n := n / 10) (k := 4) (by decide) (by decide)).mpr (by omega)
        omega
      have digits : List.replicate (4 - (Nat.toDigits 10 (n / 10)).length) '0' ++ Nat.toDigits 10 (n / 10) =
          fixed 4 (n / 10) := toDigits_eq_fixed (by omega)
      rw [four] at digits
      rw [firstFour,if_pos (by omega)]
      exact ⟨Nat.digitChar (n % 10),[],by rw [← digits]; rfl,last⟩

theorem toList_places_large {year : Int} (large : 9999 < year) :
    ∃ c more, (places 4 year).toList = fixed 4 (firstFour year.toNat) ++ c :: more ∧ c.isDigit = true := by
  obtain ⟨c,more,digits,digit⟩ := toDigits_firstFour (n := year.toNat) (by omega)
  have none : 4 - (Nat.toDigits 10 year.toNat).length = 0 := by
    rw [digits]
    simp
  refine ⟨c,more,?_,digit⟩
  rw [Clock.places_natural (by omega),← digits]
  simp [Number.padded,← String.length_toList,Nat.toList_repr,none]

theorem toList_text_year (plain : s.offset = 0) : ∃ more, s.text.toList = (places 4 s.year).toList ++ '-' :: more := by
  obtain ⟨c,told,calendar⟩ := s.exists_clock
  rw [toList_text plain,c.clock_eq s told plain,calendar]
  simp only [String.toList_append,List.append_assoc]
  exact ⟨_,rfl⟩

theorem hyphen_lt_digit {c : Char} (digit : c.isDigit = true) : '-' < c := by
  have bound : 48 ≤ c.toNat := by
    simp only [Char.isDigit,Bool.and_eq_true,decide_eq_true_eq] at digit
    exact UInt32.le_iff_toNat_le.mp digit.1
  exact UInt32.lt_iff_toNat_lt.mpr (Nat.lt_of_lt_of_le (by decide) bound)

theorem text_lt_of_negative (plain : a.offset = 0) (plain' : b.offset = 0) (negative : a.year < 0) (natural : 0 ≤ b.year)
    (four : b.year ≤ 9999) : a.text < b.text := by
  obtain ⟨more,left⟩ := toList_text_year plain
  obtain ⟨more',right⟩ := toList_text_year plain'
  rw [String.lt_iff,left,right,Clock.places_fixed (by decide) natural (by omega)]
  have sign : (places 4 a.year).toList = '-' :: (Number.padded 4 a.year.natAbs).toList := by
    simp [places,negative]
  cases digits : fixed 4 b.year.toNat with
  | nil => simpa [digits] using length_fixed 4 b.year.toNat
  | cons c rest =>
    have member : c ∈ fixed 4 b.year.toNat := by
      rw [digits]
      exact List.mem_cons_self ..
    have digit : c.isDigit = true := isDigit_of_mem_fixed member
    rw [sign,List.cons_append,List.cons_append,List.cons_lt_cons_iff]
    exact .inl (hyphen_lt_digit digit)

/-- A year past 9999 is compared by its first four digits. -/
theorem text_lt_of_large (plain : a.offset = 0) (plain' : b.offset = 0) (large : 9999 < a.year) (natural : 0 ≤ b.year)
    (four : b.year ≤ 9999) : b.text < a.text ↔ b.year ≤ firstFour a.year.toNat := by
  obtain ⟨more,left⟩ := toList_text_year plain
  obtain ⟨more',right⟩ := toList_text_year plain'
  have bounds := firstFour_bounds (n := a.year.toNat) (by omega)
  obtain ⟨c,rest,digits,digit⟩ := toList_places_large large
  have first : '-' :: more' < c :: (rest ++ '-' :: more) := List.cons_lt_cons_iff.mpr (.inl (hyphen_lt_digit digit))
  have same : fixed 4 b.year.toNat = fixed 4 (firstFour a.year.toNat) ↔ b.year.toNat = firstFour a.year.toNat :=
    ⟨fixed_injective (by omega) (by omega),fun equal => by rw [equal]⟩
  rw [String.lt_iff,left,right,Clock.places_fixed (by decide) natural (by omega),digits,List.append_assoc,
    List.cons_append,append_lt_append (by simp),fixed_lt (by omega) (by omega),same]
  simp only [first,and_true]
  omega

/-- A bound is compared with a stamp as time exactly when it is not misread. -/
theorem text_le_iff (since : Stamp) (plain : s.offset = 0) (tellable : s.Tellable) :
    (since.utc.text ≤ s.text ↔ since.nanoseconds ≤ s.nanoseconds) ↔ ¬ Misread since s := by
  have order : since.utc.text ≤ s.text ↔ ¬ s.text < since.utc.text := Iff.rfl
  have bound := since.part_lt
  have bound' := s.part_lt
  have time := since.nanoseconds_eq
  have time' := s.nanoseconds_eq
  by_cases negative : since.year < 0
  · have earlier : since.seconds < s.seconds := seconds_lt_of_year (Int.lt_of_lt_of_le negative tellable.1)
    have sorted : since.utc.text < s.text := text_lt_of_negative rfl plain negative tellable.1 tellable.2
    have fine : ¬ Misread since s := by
      rintro (clash | ⟨large,-⟩)
      · have := clash.1
        omega
      · omega
    refine iff_of_true (iff_of_true ?_ (by omega)) fine
    exact order.mpr (String.lt_asymm sorted)
  · by_cases large : 9999 < since.year
    · have later : s.seconds < since.seconds := seconds_lt_of_year (Int.lt_of_le_of_lt tellable.2 large)
      have sorted : s.text < since.utc.text ↔ s.year ≤ firstFour since.year.toNat :=
        text_lt_of_large rfl plain large tellable.1 tellable.2
      have misread : Misread since s ↔ firstFour since.year.toNat < s.year := by
        constructor
        · rintro (clash | ⟨-,first⟩)
          · have := clash.1
            omega
          · exact first
        · exact fun first => .inr ⟨large,first⟩
      have backward : ¬ since.nanoseconds ≤ s.nanoseconds := by omega
      rw [order,sorted,misread]
      simp only [backward,iff_false]
      omega
    · have told : since.utc.Tellable := ⟨Int.not_lt.mp negative,Int.not_lt.mp large⟩
      have sorted := text_lt plain rfl tellable told
      have misread : Misread since s ↔ Clash s since.utc := by
        constructor
        · rintro (clash | ⟨past,-⟩)
          · exact Clash.symm clash
          · omega
        · exact fun clash => .inl (Clash.symm clash)
      have same : since.utc.nanoseconds = since.nanoseconds := rfl
      rw [order,sorted,misread]
      by_cases clash : Clash s since.utc
      · have seconds : s.seconds = since.seconds := clash.1
        have parts : s.part ≠ since.part := clash.2.1
        rw [if_pos clash,same]
        refine iff_of_false ?_ (fun apart => apart clash)
        omega
      · rw [if_neg clash,same]
        refine iff_of_true ?_ clash
        omega

end Depends.Stamp
