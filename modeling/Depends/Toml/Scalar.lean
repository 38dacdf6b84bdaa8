import Depends.Text.Decimal
import Depends.Text.Utf8
import Depends.Time.Stamp
import Depends.Toml.Basic

/-!
Reading the scalars of TOML: texts in four notations, numbers, truth values and times. Every reader
gives the value and what follows it.
-/
namespace Depends.Toml

open Depends.Text

/-- A line end. -/
def isLineEnd (c : Char) : Bool := c == '\n' || c == '\r'

/-- A blank or a tab. -/
def isBlank (c : Char) : Bool := c == ' ' || c == '\t'

/-- What follows blanks. -/
def skipBlanks (cs : List Char) : List Char := cs.dropWhile isBlank

/-- A character given by so many hexadecimal digits. -/
def coded? (count : Nat) (cs : List Char) : Option (Char × List Char) :=
  let digits := cs.take count
  if digits.length = count then
    match Whole.digits 16 0 digits with
    | .error _ => none
    | .ok code => if Nat.isValidChar code then some (Char.ofNat code, cs.drop count) else none
  else none

/-- The character of an escape after its backslash. -/
def escape? : List Char → Option (Char × List Char)
  | 'b' :: cs => some ('\x08', cs)
  | 't' :: cs => some ('\t', cs)
  | 'n' :: cs => some ('\n', cs)
  | 'f' :: cs => some ('\x0c', cs)
  | 'r' :: cs => some ('\r', cs)
  | 'e' :: cs => some ('\x1b', cs)
  | '"' :: cs => some ('"', cs)
  | '\\' :: cs => some ('\\', cs)
  | 'x' :: cs => coded? 2 cs
  | 'u' :: cs => coded? 4 cs
  | 'U' :: cs => coded? 8 cs
  | _ => none

/-- The rest of a text in double quotes on one line. -/
def basicText? : Nat → List Char → Option (List Char × List Char)
  | 0, _ | _, [] => none
  | fuel + 1, c :: cs =>
    if c = '"' then some ([], cs)
    else if isLineEnd c then none
    else if c = '\\' then do
      let (d, rest) ← escape? cs
      let (chars, rest) ← basicText? fuel rest
      return (d :: chars, rest)
    else (basicText? fuel cs).map fun (chars, rest) => (c :: chars, rest)

/-- The rest of a text in single quotes on one line. -/
def rawText? : List Char → Option (List Char × List Char)
  | [] => none
  | c :: cs =>
    if c = '\x27' then some ([], cs)
    else if isLineEnd c then none
    else (rawText? cs).map fun (chars, rest) => (c :: chars, rest)

/-- A text over several lines without the line end it begins with. -/
def dropFirstLineEnd : List Char → List Char
  | '\n' :: cs => cs
  | '\r' :: '\n' :: cs => cs
  | cs => cs

/-- The end of a text over several lines at a run of quotes. Three quotes or more end it, those before the
last three still belong to the text, more than so many are too many, and fewer than three go on. -/
def closing? (most : Nat) (quote : Char) (cs : List Char) : Option (Option (List Char × List Char)) :=
  let run := (cs.takeWhile (· == quote)).length
  if run < 3 then some none
  else if most < run then none
  else some (some (List.replicate (run - 3) quote, cs.drop run))

/-- The rest of a text in three double quotes. A backslash at the end of a line joins it with the next
text. Five quotes can end it, and six after a backslash. -/
def longText? : Nat → Bool → List Char → Option (List Char × List Char)
  | 0, _, _ | _, _, [] => none
  | fuel + 1, slashed, c :: cs =>
    if c = '"' then
      match closing? (if slashed then 6 else 5) '"' (c :: cs) with
      | none => none
      | some (some result) => some result
      | some none => (longText? fuel false cs).map fun (chars, rest) => (c :: chars, rest)
    else if c = '\\' then
      let gap := cs.takeWhile fun d => isBlank d || isLineEnd d
      if gap.contains '\n' then longText? fuel false (cs.drop gap.length)
      else do
        let (d, rest) ← escape? cs
        let (chars, rest) ← longText? fuel (cs.head? == some '\\') rest
        return (d :: chars, rest)
    else (longText? fuel false cs).map fun (chars, rest) => (c :: chars, rest)

/-- The rest of a text in three single quotes. -/
def longRawText? : List Char → Option (List Char × List Char)
  | [] => none
  | c :: cs =>
    if c = '\x27' then
      match closing? 5 '\x27' (c :: cs) with
      | none => none
      | some (some result) => some result
      | some none => (longRawText? cs).map fun (chars, rest) => (c :: chars, rest)
    else (longRawText? cs).map fun (chars, rest) => (c :: chars, rest)

/-- A text in quotes of any kind. -/
def quotedText? : List Char → Option (String × List Char)
  | '"' :: '"' :: '"' :: cs =>
    (longText? cs.length false (dropFirstLineEnd cs)).map fun (chars, rest) => (String.ofList chars, rest)
  | '\x27' :: '\x27' :: '\x27' :: cs =>
    (longRawText? (dropFirstLineEnd cs)).map fun (chars, rest) => (String.ofList chars, rest)
  | '"' :: cs => (basicText? cs.length cs).map fun (chars, rest) => (String.ofList chars, rest)
  | '\x27' :: cs => (rawText? cs).map fun (chars, rest) => (String.ofList chars, rest)
  | _ => none

/-- Underscores stand between digits only. -/
def underscoresFit : Bool → List Char → Bool
  | afterDigit, [] => afterDigit
  | afterDigit, c :: cs =>
    (c != '_' || afterDigit) && underscoresFit (Whole.digitValue? c).isSome cs

/-- A number begins with a zero that adds nothing. -/
def hasIdleZero : List Char → Bool
  | '0' :: c :: _ => !(c == 'b' || c == 'o' || c == 'x')
  | '+' :: '0' :: _ :: _ | '-' :: '0' :: _ :: _ => true
  | _ => false

/-- The value of a whole number. -/
def whole? (cs : List Char) : Option Expr :=
  if underscoresFit false cs && !hasIdleZero cs then
    match Whole.ofText (String.ofList cs) with
    | .ok n => some (.whole n)
    | .error _ => none
  else none

/-- The pieces of a number between points and exponent marks. -/
def pieces (cs : List Char) : List (List Char) :=
  (fields '.' (cs.map fun c => if c = 'e' || c = 'E' then '.' else c)).filter (!·.isEmpty)

/-- Every point is followed by a digit. -/
def pointsFit (cs : List Char) : Bool :=
  cs.getLast? != some '.' && (cs.zip cs.tail).all fun pair => pair.1 != '.' || pair.2.isDigit

/-- The value of a number with a fraction or an exponent. -/
def decimal? (cs : List Char) : Option Expr :=
  let parts := pieces cs
  if parts.all (underscoresFit false) && !(parts.head?.any hasIdleZero) && pointsFit cs then do
    let (sign, digits) := Whole.cutSign (cs.filter (· != '_'))
    let value ← (← Decimal.read? digits).double?
    return .decimal (if sign = some '-' then -value else value)
  else none

/-- A number whose first digits are read: it goes on as a decimal number or ends. -/
def number? (read rest : List Char) : Option (Expr × List Char) :=
  let digits := rest.takeWhile fun c => c.isDigit || c == '_'
  let rest := rest.drop digits.length
  if rest.head?.any fun c => c == '.' || c == 'e' || c == 'E' then
    let more := rest.takeWhile fun c => c.isDigit || "_.-+eE".toList.contains c
    (decimal? (read ++ digits ++ more)).map (·, rest.drop more.length)
  else (whole? (read ++ digits)).map (·, rest)

/-- A number after its base mark. -/
def marked? (base : Nat) (start rest : List Char) : Option (Expr × List Char) :=
  let fits (c : Char) := (Whole.digitValue? c).any (· < base)
  if rest.head?.any fits then
    let digits := rest.takeWhile fun c => fits c || c == '_'
    (whole? (start ++ digits)).map (·, rest.drop digits.length)
  else none

/-- A time of day; its seconds may be missing. -/
def clock? (cs : List Char) : Option (List Char) := do
  let (hour, cs) ← Stamp.digits? 2 cs
  let cs ← Stamp.literal? ':' cs
  let (minute, cs) ← Stamp.digits? 2 cs
  if 24 ≤ hour || 60 ≤ minute then none
  else
    match cs with
    | ':' :: cs => do
      let (second, cs) ← Stamp.digits? 2 cs
      if 60 ≤ second then none else return (Stamp.fraction? cs).2
    | cs => return cs

/-- A date, a time of day, or both, the latter with an offset or without. -/
def isMoment (cs : List Char) : Bool :=
  let cs := cs.map fun c => if c = 't' || c = ' ' then 'T' else if c = 'z' then 'Z' else c
  match Stamp.date? cs with
  | none => (clock? cs).any List.isEmpty
  | some (_, []) => true
  | some (_, mark :: rest) =>
    mark = 'T' && (clock? rest).any fun rest => rest.isEmpty || (Stamp.zone? rest).any (·.2.isEmpty)

/-- A date or a time whose first characters are read. -/
def moment? (read rest : List Char) : Option (Expr × List Char) :=
  let more := rest.takeWhile fun c => c.isDigit || "-:Tt .Zz+".toList.contains c
  let text := ((read ++ more).reverse.dropWhile isBlank).reverse
  if isMoment text then some (.moment, rest.drop more.length) else none

/-- A number or a time that begins with a digit. -/
def numberOrMoment? (cs : List Char) : Option (Expr × List Char) :=
  match cs with
  | '0' :: 'b' :: rest => marked? 2 ['0', 'b'] rest
  | '0' :: 'o' :: rest => marked? 8 ['0', 'o'] rest
  | '0' :: 'x' :: rest => marked? 16 ['0', 'x'] rest
  | _ =>
    let digits := cs.takeWhile Char.isDigit
    let rest := cs.drop digits.length
    if 1 < digits.length && rest.head?.any fun c => c == '-' || c == ':' then moment? digits rest
    else number? digits rest

/-- A number after its sign. -/
def signedNumber? (sign : Char) (cs : List Char) : Option (Expr × List Char) :=
  match cs with
  | 'i' :: 'n' :: 'f' :: rest => some (.notFinite, rest)
  | 'n' :: 'a' :: 'n' :: rest => some (.notFinite, rest)
  | c :: rest => if c.isDigit then number? [sign, c] rest else none
  | [] => none

/-- A scalar at the start of the characters. -/
def scalar? (cs : List Char) : Option (Expr × List Char) :=
  match cs with
  | [] => none
  | 'i' :: 'n' :: 'f' :: rest => some (.notFinite, rest)
  | 'n' :: 'a' :: 'n' :: rest => some (.notFinite, rest)
  | '+' :: rest => signedNumber? '+' rest
  | '-' :: rest => signedNumber? '-' rest
  | c :: _ =>
    if c = '"' || c = '\x27' then (quotedText? cs).map fun (s, rest) => (.text s, rest)
    else if c.isDigit then numberOrMoment? cs
    else
      let word := cs.takeWhile isLetter
      match String.ofList word with
      | "true" => some (.truth true, cs.drop word.length)
      | "false" => some (.truth false, cs.drop word.length)
      | _ => none

end Depends.Toml
