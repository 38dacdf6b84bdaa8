import Depends.Text.Fields

/-!
Whole numbers of 64 bits in the notation of programs: a sign, a base mark (`0x`, `0b`, `0o`, or a leading
zero for base eight), and underscores between digits.
-/
namespace Depends.Text

/-- Why a text is no whole number. -/
inductive WholeFault where
  | malformed
  | outOfRange
  deriving DecidableEq, Repr

namespace Whole

/-- The value of a digit up to `f`. -/
def digitValue? (c : Char) : Option Nat :=
  if c.isDigit then some (c.toNat - 48)
  else if 'a' ≤ c && c ≤ 'f' then some (c.toNat - 87)
  else if 'A' ≤ c && c ≤ 'F' then some (c.toNat - 55)
  else none

/-- The value of digits after those read so far. A value of more than 64 bits is out of range from the
digit on that makes it so. -/
def digits (base : Nat) : Nat → List Char → Except WholeFault Nat
  | value, [] => .ok value
  | value, c :: cs =>
    match digitValue? c with
    | none => .error .malformed
    | some d =>
      if base ≤ d then .error .malformed
      else if 18446744073709551616 ≤ value * base + d then .error .outOfRange
      else digits base (value * base + d) cs

/-- The base that the start of a number tells, and the digits after its mark. A mark alone is none. -/
def baseOf : List Char → Nat × List Char
  | '0' :: mark :: d :: cs =>
    if mark = 'x' || mark = 'X' then (16, d :: cs)
    else if mark = 'b' || mark = 'B' then (2, d :: cs)
    else if mark = 'o' || mark = 'O' then (8, d :: cs)
    else (8, mark :: d :: cs)
  | '0' :: cs => (8, cs)
  | cs => (10, cs)

/-- Every underscore stands after a digit, or after a base mark, and before a digit. -/
def underscoresSeparate : Bool → List Char → Bool
  | _, [] => true
  | _, ['_'] => false
  | afterDigit, '_' :: c :: cs => afterDigit && c != '_' && underscoresSeparate true (c :: cs)
  | _, _ :: cs => underscoresSeparate true cs

/-- A sign, if there is one, and the rest. -/
def cutSign : List Char → Option Char × List Char
  | '+' :: cs => (some '+', cs)
  | '-' :: cs => (some '-', cs)
  | cs => (none, cs)

/-- The size of a number without sign. -/
def magnitude (cs : List Char) : Except WholeFault Nat :=
  let (base, rest) := baseOf cs
  if cs.isEmpty then .error .malformed
  else
    match digits base 0 (rest.filter (· != '_')) with
    | .error fault => .error fault
    | .ok value =>
      let marked := base != 10
      if underscoresSeparate marked rest then .ok value else .error .malformed

/-- A size with its sign, if it fits in 64 bits. -/
def signed (sign : Option Char) (size : Nat) : Except WholeFault Int :=
  if sign = some '-' then if 9223372036854775808 < size then .error .outOfRange else .ok (-(size : Int))
  else if 9223372036854775808 ≤ size then .error .outOfRange
  else .ok size

/-- Reads a whole number in any base. -/
def ofText (s : String) : Except WholeFault Int := do
  let (sign, cs) := cutSign s.toList
  signed sign (← magnitude cs)

/-- Reads a whole number in base ten, without underscores. -/
def ofDecimal (s : String) : Except WholeFault Int := do
  let (sign, cs) := cutSign s.toList
  if cs.isEmpty then throw .malformed
  signed sign (← digits 10 0 cs)

end Whole

end Depends.Text
