import Depends.Text.Decimal
import Depends.Time.Stamp

/-!
Which texts a YAML reader would take for something other than a text: null, a truth value, a number or
a time. Such texts are never written plain.
-/
namespace Depends.Yaml

open Depends.Text

/-- Words that stand for null, truth values and special numbers. -/
def resolvedWords : List String :=
  ["", "~", "null", "Null", "NULL", "true", "True", "TRUE", "false", "False", "FALSE",
    ".nan", ".NaN", ".NAN", ".inf", ".Inf", ".INF", "+.inf", "+.Inf", "+.INF", "-.inf", "-.Inf", "-.INF"]

/-- Words that older readers take for truth values. -/
def oldTruthWords : List String :=
  ["y", "Y", "yes", "Yes", "YES", "on", "On", "ON", "n", "N", "no", "No", "NO", "off", "Off", "OFF"]

/-- A whole number in one of the accepted bases; without a sign one more bit is there. -/
def isWhole (cs : List Char) : Bool :=
  let (sign, digits) := Whole.cutSign cs
  match Whole.magnitude digits with
  | .error _ => false
  | .ok size => sign.isNone || (Whole.signed sign size).isOk

/-- A number after a base mark may have a sign of its own. -/
def isMarkedWhole (cs : List Char) : Bool :=
  match cs with
  | '0' :: mark :: rest =>
    let base := if mark = 'b' then 2 else if mark = 'o' then 8 else 0
    let (sign, digits) := Whole.cutSign rest
    0 < base && !digits.isEmpty &&
      match Whole.digits base 0 digits with
      | .error _ => false
      | .ok size => sign.isNone || (Whole.signed sign size).isOk
  | _ => false

/-- A decimal number within double precision. -/
def isDecimal (cs : List Char) : Bool :=
  ((Decimal.read? (Whole.cutSign cs).2).bind Decimal.double?).isSome

/-- Every underscore stands between two digits. -/
def separatesDigits (cs : List Char) : Bool :=
  let around := (none :: cs.map some).zip (cs.zip ((cs.drop 1).map some ++ [none]))
  around.all fun (before, c, after) => c != '_' || (before.any Char.isDigit && after.any Char.isDigit)

/-- A date whose month and day may have one digit, as a rest. -/
def shortDate? (cs : List Char) : Option (List Char) := do
  let (year, cs) ← Stamp.digits? 4 cs
  let cs ← Stamp.literal? '-' cs
  let (month, cs) ← Stamp.shortDigits? cs
  let cs ← Stamp.literal? '-' cs
  let (day, cs) ← Stamp.shortDigits? cs
  if 1 ≤ month && month ≤ 12 && 1 ≤ day && day ≤ Stamp.daysIn year month then return cs else none

/-- A time of day whose numbers may have one digit, as a rest. -/
def shortClock? (cs : List Char) : Option (List Char) := do
  let (hour, cs) ← Stamp.shortDigits? cs
  let cs ← Stamp.literal? ':' cs
  let (minute, cs) ← Stamp.shortDigits? cs
  let cs ← Stamp.literal? ':' cs
  let (second, cs) ← Stamp.shortDigits? cs
  if hour < 24 && minute < 60 && second < 60 then return (Stamp.fraction? cs).2 else none

/-- A date, alone or with a time of day; a time after `T` has an offset and one after blanks has
none. -/
def isTimestamp (cs : List Char) : Bool :=
  match shortDate? cs with
  | none => false
  | some [] => true
  | some (mark :: rest) =>
    if mark = 'T' || mark = 't' then
      ((shortClock? rest).bind Stamp.zone?).any (·.2.isEmpty)
    else mark = ' ' && (shortClock? (rest.dropWhile (· = ' '))).any List.isEmpty

/-- A number in base sixty: digits, then groups after colons, then maybe a fraction. -/
def isBaseSixty (cs : List Char) : Bool :=
  match (Whole.cutSign cs).2 with
  | first :: rest =>
    let groups := rest.dropWhile fun c => c.isDigit || c = '_'
    first.isDigit && groups.head? = some ':' && afterGroups groups.length groups
  | [] => false
where
  /-- Groups of at most two digits below sixty, then the end or a fraction. -/
  afterGroups : Nat → List Char → Bool
    | fuel + 1, ':' :: a :: b :: cs =>
      if a.isDigit && b.isDigit then a < '6' && afterGroups fuel cs
      else a.isDigit && afterGroups fuel (b :: cs)
    | _, [':', a] => a.isDigit
    | _, [] => true
    | _, '.' :: cs => cs.all fun c => c.isDigit || c = '_'
    | _, _ => false

/-- A text that would be read back as something else. -/
def readsAsOther (s : String) : Bool :=
  let cs := s.toList
  let bare := cs.filter (· != '_')
  resolvedWords.contains s || oldTruthWords.contains s || isBaseSixty cs ||
    match cs with
    | [] => true
    | '.' :: _ => separatesDigits cs && isDecimal bare
    | first :: _ =>
      (first.isDigit || first = '+' || first = '-') &&
        (isTimestamp cs || isWhole bare || isDecimal bare || isMarkedWhole bare)

end Depends.Yaml
