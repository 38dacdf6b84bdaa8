/-!
Numbers with 53 significant bits, as exact rationals, and their decimal text.
-/
namespace Depends.Number

/-- A power of two. -/
def powerOfTwo (k : Int) : Rat := (2 : Rat) ^ k

/-- The nearest whole number; a half goes to the even neighbour. -/
def roundEven (x : Rat) : Int :=
  let below := x.floor
  let part := x - below
  if part < 1 / 2 then below
  else if 1 / 2 < part then below + 1
  else if below % 2 = 0 then below else below + 1

/-- The exponent of the leading bit of a positive number. -/
def leadingBit (x : Rat) : Int :=
  let guess : Int := (Nat.log2 x.num.natAbs : Int) - Nat.log2 x.den
  if x < powerOfTwo guess then guess - 1 else guess

/-- The nearest number with 53 significant bits and no bit below the smallest one. -/
def nearest (x : Rat) : Rat :=
  if x = 0 then 0
  else
    let size := if x < 0 then -x else x
    let unit := max (leadingBit size - 52) (-1074)
    let value := (roundEven (size / powerOfTwo unit) : Rat) * powerOfTwo unit
    if x < 0 then -value else value

/-- Of the whole numbers below `10 ^ 21` that read back as the given one, the one with the most zeros at
its end. -/
def shortWhole (n : Int) : Int :=
  let steps : List Nat := (List.range 21).reverse.map (Nat.pow 10)
  let rounded := steps.map fun step : Nat => roundEven (mkRat n step) * step
  (rounded.find? fun m : Int => nearest m = n).getD n

/-- A whole number of 64 bits, wrapped around. -/
def wrap64 (n : Int) : Int := n.bmod 18446744073709551616

/-- The sum of some numbers. -/
def total (numbers : List Nat) : Nat := numbers.foldr (· + ·) 0

/-- The digits of a natural number, padded with zeros in front. -/
def padded (places n : Nat) : String :=
  let digits := toString n
  String.ofList (List.replicate (places - digits.length) '0') ++ digits

/-- A number with two places after the point; a half goes to the even neighbour. -/
def twoPlaces (x : Rat) : String :=
  let size := if x < 0 then -x else x
  let cents := (roundEven (size * 100)).toNat
  (if x < 0 then "-" else "") ++ toString (cents / 100) ++ "." ++ padded 2 (cents % 100)

end Depends.Number
