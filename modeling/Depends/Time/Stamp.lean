import Depends.Number

/-!
Points in time with the offset they are told in: calendar dates, the standard text with as many
fractional digits as needed, and its reading.
-/
namespace Depends

/-- A point in time, in nanoseconds since 1970 without leap seconds, with an offset in seconds. -/
structure Stamp where
  nanoseconds : Int
  offset : Int := 0
  deriving DecidableEq, Repr

namespace Stamp

/-- The start of year 1, which stands for no time at all. -/
def zero : Stamp := { nanoseconds := -62135596800000000000 }

/-- The point in time that stands for none. -/
def isZero (s : Stamp) : Bool := s.nanoseconds == zero.nanoseconds

/-- The same point in time without offset. -/
def utc (s : Stamp) : Stamp := { s with offset := 0 }

/-- The whole seconds since 1970. -/
def seconds (s : Stamp) : Int := s.nanoseconds / 1000000000

/-- The days from 1970 to a date of the proleptic Gregorian calendar. -/
def daysOfDate (year month day : Int) : Int :=
  let y := if month ≤ 2 then year - 1 else year
  let era := y / 400
  let yearOfEra := y - era * 400
  let shifted := if month > 2 then month - 3 else month + 9
  let dayOfYear := (153 * shifted + 2) / 5 + day - 1
  let dayOfEra := yearOfEra * 365 + yearOfEra / 4 - yearOfEra / 100 + dayOfYear
  era * 146097 + dayOfEra - 719468

/-- The date that many days after 1970. -/
def dateOfDays (days : Int) : Int × Int × Int :=
  let z := days + 719468
  let era := z / 146097
  let dayOfEra := z - era * 146097
  let yearOfEra := (dayOfEra - dayOfEra / 1460 + dayOfEra / 36524 - dayOfEra / 146096) / 365
  let dayOfYear := dayOfEra - (365 * yearOfEra + yearOfEra / 4 - yearOfEra / 100)
  let shifted := (5 * dayOfYear + 2) / 153
  let day := dayOfYear - (153 * shifted + 2) / 5 + 1
  let month := if shifted < 10 then shifted + 3 else shifted - 9
  let year := yearOfEra + era * 400
  (if month ≤ 2 then year + 1 else year, month, day)

/-- A leap year. -/
def isLeap (year : Nat) : Bool := year % 4 == 0 && (year % 100 != 0 || year % 400 == 0)

/-- The number of days of a month. -/
def daysIn (year month : Nat) : Nat :=
  match month with
  | 2 => if isLeap year then 29 else 28
  | 4 | 6 | 9 | 11 => 30
  | _ => 31

/-- Digits with a sign and at least the given number of places. -/
def places (count : Nat) (n : Int) : String :=
  (if n < 0 then "-" else "") ++ Number.padded count n.natAbs

/-- The date and the time of day with a separator between them. -/
def clock (separator : String) (s : Stamp) : String :=
  let seconds := s.nanoseconds / 1000000000 + s.offset
  let days := seconds / 86400
  let rest := seconds - days * 86400
  let (year, month, day) := dateOfDays days
  places 4 year ++ "-" ++ places 2 month ++ "-" ++ places 2 day ++ separator ++
    places 2 (rest / 3600) ++ ":" ++ places 2 (rest / 60 % 60) ++ ":" ++ places 2 (rest % 60)

/-- The fraction of the second without trailing zeros. -/
def fraction (s : Stamp) : String :=
  let digits := (Number.padded 9 (s.nanoseconds % 1000000000).toNat).toList
  let digits := (digits.reverse.dropWhile (· == '0')).reverse
  if digits.isEmpty then "" else "." ++ String.ofList digits

/-- The offset, with `Z` for none. -/
def zone (s : Stamp) : String :=
  if s.offset = 0 then "Z"
  else
    let minutes := s.offset.natAbs / 60
    (if s.offset < 0 then "-" else "+") ++ places 2 (minutes / 60 : Nat) ++ ":" ++ places 2 (minutes % 60 : Nat)

/-- The standard text. -/
def text (s : Stamp) : String := s.clock "T" ++ s.fraction ++ s.zone

/-- Reads exactly so many digits. -/
def digits? (count : Nat) (cs : List Char) : Option (Nat × List Char) :=
  let digits := cs.take count
  if digits.length = count && digits.all Char.isDigit then
    some (digits.foldl (fun n c => n * 10 + (c.toNat - 48)) 0, cs.drop count)
  else none

/-- Reads two digits, or one digit that stands alone. -/
def shortDigits? (cs : List Char) : Option (Nat × List Char) :=
  match digits? 2 cs with
  | some result => some result
  | none => digits? 1 cs

/-- Reads a given character. -/
def literal? (c : Char) : List Char → Option (List Char)
  | d :: rest => if c = d then some rest else none
  | [] => none

/-- Reads a date of the calendar: the days since 1970 and the rest. -/
def date? (cs : List Char) : Option (Int × List Char) := do
  let (year, cs) ← digits? 4 cs
  let cs ← literal? '-' cs
  let (month, cs) ← digits? 2 cs
  let cs ← literal? '-' cs
  let (day, cs) ← digits? 2 cs
  if 1 ≤ month && month ≤ 12 && 1 ≤ day && day ≤ daysIn year month then
    return (daysOfDate year month day, cs)
  else none

/-- Reads a fraction of a second, if there is one, in nanoseconds. Digits past the ninth are dropped. -/
def fraction? (cs : List Char) : Nat × List Char :=
  match cs with
  | mark :: more =>
    let digits := more.takeWhile Char.isDigit
    if (mark = '.' || mark = ',') && !digits.isEmpty then
      let kept := digits.take 9
      (kept.foldl (fun n c => n * 10 + (c.toNat - 48)) 0 * Nat.pow 10 (9 - kept.length), more.drop digits.length)
    else (0, cs)
  | [] => (0, cs)

/-- Reads an offset in seconds. -/
def zone? (cs : List Char) : Option (Int × List Char) :=
  match cs with
  | 'Z' :: rest => some (0, rest)
  | sign :: rest => do
    let (hours, rest) ← digits? 2 rest
    let rest ← literal? ':' rest
    let (minutes, rest) ← digits? 2 rest
    if 24 < hours || 60 < minutes then none
    else
      let size : Int := (hours * 60 + minutes) * 60
      match sign with
      | '+' => some (size, rest)
      | '-' => some (-size, rest)
      | _ => none
  | [] => none

/-- Reads the standard text. An hour may have one digit. -/
def ofText? (s : String) : Option Stamp := do
  let (days, cs) ← date? s.toList
  let cs ← literal? 'T' cs
  let (hour, cs) ← shortDigits? cs
  let cs ← literal? ':' cs
  let (minute, cs) ← digits? 2 cs
  let cs ← literal? ':' cs
  let (second, cs) ← digits? 2 cs
  let (nanoseconds, cs) := fraction? cs
  let (offset, cs) ← zone? cs
  if hour < 24 && minute < 60 && second < 60 && cs.isEmpty then
    let seconds : Int := days * 86400 + (hour * 3600 + minute * 60 + second : Nat) - offset
    return { nanoseconds := seconds * 1000000000 + nanoseconds, offset }
  else none

/-- Reads a date alone, as its first moment. -/
def ofDate? (s : String) : Option Stamp := do
  let (days, cs) ← date? s.toList
  if cs.isEmpty then return { nanoseconds := days * 86400 * 1000000000 } else none

end Stamp

end Depends
