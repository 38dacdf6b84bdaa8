import Depends.Number
import Depends.Text.Fields

/-!
Lengths of time in nanoseconds: rounding, text, and the reading of texts such as `1h15m30.5s`.
-/
namespace Depends.Duration

/-- The largest duration. -/
def maximum : Int := 9223372036854775807

/-- The smallest duration. -/
def minimum : Int := -9223372036854775808

/-- Nanoseconds in a millisecond. -/
def millisecond : Int := 1000000

/-- Nanoseconds in a second. -/
def second : Int := 1000000000

/-- The nearest multiple of a unit; a half goes away from zero, and the ends of the range hold. -/
def round (d unit : Int) : Int :=
  let rest := (Int.natAbs d : Int) % unit
  let size := (Int.natAbs d : Int) - rest
  let size := if rest + rest < unit then size else size + unit
  if d < 0 then max minimum (-size) else min maximum size

/-- A number of units as decimal text with the fraction given by `places` digits, without trailing
zeros. -/
def decimal (whole fraction places : Nat) : String :=
  let digits := (Number.padded places fraction).toList
  let digits := (digits.reverse.dropWhile (· == '0')).reverse
  toString whole ++ (if digits.isEmpty then "" else "." ++ String.ofList digits)

/-- The text of a duration: hours, minutes and seconds from one second on, and one smaller unit
below. -/
def text (d : Int) : String :=
  let size := d.natAbs
  let sign := if d < 0 then "-" else ""
  if size = 0 then "0s"
  else if size < 1000 then sign ++ toString size ++ "ns"
  else if size < 1000000 then sign ++ decimal (size / 1000) (size % 1000) 3 ++ "µs"
  else if size < 1000000000 then sign ++ decimal (size / 1000000) (size % 1000000) 6 ++ "ms"
  else
    let seconds := size / 1000000000
    let tail := decimal (seconds % 60) (size % 1000000000) 9 ++ "s"
    let minutes := seconds / 60
    if minutes = 0 then sign ++ tail
    else if minutes < 60 then sign ++ toString minutes ++ "m" ++ tail
    else sign ++ toString (minutes / 60) ++ "h" ++ toString (minutes % 60) ++ "m" ++ tail

/-- The nanoseconds of a unit. -/
def unit? (name : List Char) : Option Nat :=
  match String.ofList name with
  | "ns" => some 1
  | "us" => some 1000
  | "µs" => some 1000
  | "μs" => some 1000
  | "ms" => some 1000000
  | "s" => some 1000000000
  | "m" => some 60000000000
  | "h" => some 3600000000000
  | _ => none

/-- The value of decimal digits. -/
def digitsValue (digits : List Char) : Nat :=
  digits.foldl (fun n c => n * 10 + (c.toNat - 48)) 0

/-- Digits after a point while they are read: their value, the power of ten below it with 53 significant
bits, and whether no more digits are taken in. -/
structure Fraction where
  value : Nat := 0
  scale : Rat := 1
  full : Bool := false

/-- One more digit. The value keeps within 63 bits; digits after it is full are passed over. -/
def Fraction.push (f : Fraction) (c : Char) : Fraction :=
  let value := f.value * 10 + (c.toNat - 48)
  if f.full || 922337203685477580 < f.value || 9223372036854775808 < value then { f with full := true }
  else { value, scale := Number.nearest (f.scale * 10) }

/-- The part of a unit, cut to whole nanoseconds, by arithmetic with 53 significant bits. A scale past
the largest number leaves nothing. -/
def Fraction.of (f : Fraction) (unit : Nat) : Nat :=
  let share := if f.scale < Number.powerOfTwo 1024 then Number.nearest ((unit : Rat) / f.scale) else 0
  (Number.nearest (Number.nearest f.value * share)).floor.toNat

/-- Reads one quantity with its unit off a text: its nanoseconds and the rest. A quantity past the range
is refused. -/
def quantity? (cs : List Char) : Option (Nat × List Char) :=
  let whole := cs.takeWhile Char.isDigit
  let rest := cs.dropWhile Char.isDigit
  let (fraction, rest) :=
    match rest with
    | '.' :: more => (more.takeWhile Char.isDigit, more.dropWhile Char.isDigit)
    | _ => ([], rest)
  if whole.isEmpty && fraction.isEmpty then none
  else
    let name := rest.takeWhile fun c => c != '.' && !c.isDigit
    match unit? name with
    | none => none
    | some unit =>
      let total := digitsValue whole * unit + (fraction.foldl Fraction.push {}).of unit
      if 9223372036854775808 < total then none else some (total, rest.drop name.length)

/-- Adds up quantities until the text ends. -/
def total? : Nat → Nat → List Char → Option Nat
  | _, sum, [] => some sum
  | 0, _, _ :: _ => none
  | fuel + 1, sum, c :: cs =>
    match quantity? (c :: cs) with
    | none => none
    | some (value, rest) => if 9223372036854775808 < sum + value then none else total? fuel (sum + value) rest

/-- Reads a duration: an optional sign, then quantities with units; `0` needs no unit. -/
def ofText? (s : String) : Option Int :=
  let (negative, body) :=
    match s.toList with
    | '-' :: rest => (true, rest)
    | '+' :: rest => (false, rest)
    | rest => (false, rest)
  if body = ['0'] then some 0
  else if body.isEmpty then none
  else
    match total? body.length 0 body with
    | none => none
    | some sum =>
      if negative then some (-(sum : Int)) else if sum ≤ maximum.toNat then some sum else none

end Depends.Duration
