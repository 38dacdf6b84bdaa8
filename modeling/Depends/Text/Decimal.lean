import Depends.Number
import Depends.Text.Whole

/-!
Decimal numbers with a fraction and an exponent, read into double precision.
-/
namespace Depends.Text

/-- The digits before and after the point, and the exponent. -/
structure Decimal where
  whole : List Char
  fraction : List Char
  exponent : Int
  deriving DecidableEq, Repr

namespace Decimal

/-- The value of digits in base ten. -/
def digitsValue (digits : List Char) : Nat :=
  digits.foldl (fun n c => n * 10 + (c.toNat - 48)) 0

/-- Reads a decimal number without sign. A point needs a digit on one side, and an exponent has
digits. -/
def read? (cs : List Char) : Option Decimal :=
  let whole := cs.takeWhile Char.isDigit
  let (fraction, rest) :=
    match cs.dropWhile Char.isDigit with
    | '.' :: more => (more.takeWhile Char.isDigit, more.dropWhile Char.isDigit)
    | more => ([], more)
  if whole.isEmpty && fraction.isEmpty then none
  else
    match rest with
    | [] => some { whole, fraction, exponent := 0 }
    | mark :: more =>
      let (sign, digits) := Whole.cutSign more
      if (mark = 'e' || mark = 'E') && !digits.isEmpty && digits.all Char.isDigit then
        let size : Int := digitsValue digits
        some { whole, fraction, exponent := if sign = some '-' then -size else size }
      else none

/-- The digits without leading zeros, as a number to be multiplied by a power of ten. -/
def scaled (d : Decimal) : Nat × Nat × Int :=
  let digits := (d.whole ++ d.fraction).dropWhile (· == '0')
  (digits.length, digitsValue digits, d.exponent - d.fraction.length)

/-- The nearest number in double precision; none when it is past the largest one. Very small numbers
are zero. -/
def double? (d : Decimal) : Option Rat :=
  let (length, value, power) := d.scaled
  if value = 0 || length + power < -400 then some 0
  else if 400 < length + power then none
  else
    let exact : Rat :=
      if 0 ≤ power then (value : Rat) * (Nat.pow 10 power.toNat : Nat)
      else (value : Rat) / (Nat.pow 10 (-power).toNat : Nat)
    let rounded := Number.nearest exact
    if rounded < Number.powerOfTwo 1024 then some rounded else none

end Decimal

end Depends.Text
