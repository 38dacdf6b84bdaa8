import Depends.Text.Quoted
import Depends.Text.Utf8
import Depends.Text.Whole

/-!
Percent encoding: a percent sign and two hexadecimal digits stand for a byte.
-/
namespace Depends.Text.Percent

/-- The byte that two hexadecimal digits give. -/
def byte? (high low : Char) : Option UInt8 :=
  match Whole.digitValue? high, Whole.digitValue? low with
  | some h, some l => some (UInt8.ofNat (16 * h + l))
  | _, _ => none

/-- The bytes that a text stands for. A percent sign without two digits after it stands for itself. -/
def bytes : List Char → List UInt8
  | [] => []
  | '%' :: high :: low :: cs =>
    match byte? high low with
    | some byte => byte :: bytes cs
    | none => 37 :: bytes (high :: low :: cs)
  | c :: cs => Text.encode (String.singleton c) ++ bytes cs

/-- The text that a text stands for. -/
def decode (s : String) : String := Text.ofBytes (bytes s.toList)

/-- Two hexadecimal digits follow every percent sign. -/
def isValid : List Char → Bool
  | [] => true
  | '%' :: high :: low :: cs => (byte? high low).isSome && isValid cs
  | c :: cs => c != '%' && isValid cs

/-- A text for some bytes, in which only the given characters stand for themselves. -/
def encode (plain : Char → Bool) (data : List UInt8) : String :=
  String.ofList (data.flatMap fun byte =>
    let c := Char.ofNat byte.toNat
    if plain c then [c] else '%' :: (Text.hex 2 byte.toNat).map Char.toUpper)

end Depends.Text.Percent
