import Depends.Text.Fields
import Depends.Text.Quoted
import Depends.Yaml.Plain

/-!
How a text is written as a YAML scalar: plain if it can stand so, in single or double quotes if not,
and as a literal block when it has several lines.
-/
namespace Depends.Yaml

/-- A character that ends a line. -/
def isBreak (c : Char) : Bool :=
  c == '\n' || c == '\r' || c.toNat == 0x85 || c.toNat == 0x2028 || c.toNat == 0x2029

/-- A blank or a tab. -/
def isBlank (c : Char) : Bool := c == ' ' || c == '\t'

/-- A character that may stand unescaped. -/
def isPrintable (c : Char) : Bool :=
  let code := c.toNat
  code == 0x0a || (0x20 ≤ code && code ≤ 0x7e) ||
    (0xa0 ≤ code && code ≤ 0xfffd && code != 0xfeff)

/-- A character that is neither printable nor a tab. -/
def isSpecial (c : Char) : Bool := c != '\t' && !isPrintable c

/-- Neighbours, the first before the second, somewhere in the text. -/
def hasPair (first second : Char → Bool) (cs : List Char) : Bool :=
  (cs.zip cs.tail).any fun pair => first pair.1 && second pair.2

/-- A plain text may not begin so. -/
def startsLikeSyntax : List Char → Bool
  | [] => false
  | first :: rest =>
    "#,[]\x7b\x7d&*!|>'\"%@\x60".toList.contains first ||
      ((first == '?' || first == ':' || first == '-') && rest.head?.all isBlank) ||
      ['-', '-', '-'].isPrefixOf (first :: rest) || ['.', '.', '.'].isPrefixOf (first :: rest)

/-- A colon before a blank or the end, or a number sign after a blank. -/
def hasInnerSyntax (cs : List Char) : Bool :=
  hasPair (· == ':') isBlank cs || cs.getLast? == some ':' ||
    hasPair (fun c => isBlank c || isBreak c || c.toNat == 0) (· == '#') cs

/-- The text begins or ends with a blank. -/
def hasOuterSpace (cs : List Char) : Bool := cs.head? == some ' ' || cs.getLast? == some ' '

/-- A text in single quotes would be read differently. -/
def needsEscapes (cs : List Char) : Bool :=
  cs.any isSpecial || cs.contains '\t' || hasPair (· == ' ') isBreak cs || hasPair isBreak (· == ' ') cs

/-- The text can stand without quotes. -/
def allowsPlain (cs : List Char) : Bool :=
  !(startsLikeSyntax cs || hasInnerSyntax cs || hasOuterSpace cs || cs.any isBreak || needsEscapes cs)

/-- The text can stand as a literal block. -/
def allowsLiteral (cs : List Char) : Bool :=
  !(cs.getLast? == some ' ' || hasPair (· == ' ') isBreak cs || cs.any isSpecial)

/-- Upper-case hexadecimal digits. -/
def hexUpper (places n : Nat) : List Char := (Text.hex places n).map Char.toUpper

/-- The escape for a character. -/
def escape (c : Char) : List Char :=
  '\\' :: match c.toNat with
    | 0x00 => ['0']
    | 0x07 => ['a']
    | 0x08 => ['b']
    | 0x09 => ['t']
    | 0x0a => ['n']
    | 0x0b => ['v']
    | 0x0c => ['f']
    | 0x0d => ['r']
    | 0x1b => ['e']
    | 0x22 => ['"']
    | 0x5c => ['\\']
    | 0x85 => ['N']
    | 0xa0 => ['_']
    | 0x2028 => ['L']
    | 0x2029 => ['P']
    | code =>
      if code ≤ 0xff then 'x' :: hexUpper 2 code
      else if code ≤ 0xffff then 'u' :: hexUpper 4 code
      else 'U' :: hexUpper 8 code

/-- A character that may stand unescaped in double quotes. -/
def standsInQuotes (c : Char) : Bool := isPrintable c && !isBreak c && c != '"' && c != '\\'

/-- A text in double quotes. After a byte order mark at the front every character is escaped. -/
def doubleQuoted (cs : List Char) : List Char :=
  let marked := cs.head?.any fun c => c.toNat == 0xfeff
  '"' :: (cs.flatMap fun c => if !marked && standsInQuotes c then [c] else escape c) ++ ['"']

/-- The characters of lines, each run of line ends followed by an indentation. -/
def indentLines (indent : Nat) : Bool → List Char → List Char
  | _, [] => []
  | fresh, c :: cs =>
    if isBreak c then c :: indentLines indent true cs
    else (if fresh then List.replicate indent ' ' else []) ++ c :: indentLines indent false cs

/-- A text in single quotes, where a quote is written twice. -/
def singleQuoted (indent : Nat) (cs : List Char) : List Char :=
  '\x27' :: indentLines indent false (cs.flatMap fun c => if c = '\x27' then ['\x27', '\x27'] else [c]) ++ ['\x27']

/-- How the end of a literal block is kept: no line end, one, or all. -/
def chompMark (cs : List Char) : List Char :=
  match cs.reverse with
  | last :: before =>
    if !isBreak last then ['-'] else if before.head?.all isBreak then ['+'] else []
  | [] => ['-']

/-- A literal block, with the line end after it if that is part of the text. -/
def literal (indent : Nat) (cs : List Char) : List Char :=
  let opensBlank := cs.head?.any fun c => c == ' ' || isBreak c
  let body := if cs.head?.any isBreak then cs else '\n' :: cs
  '|' :: (if opensBlank then ['4'] else []) ++ chompMark cs ++ indentLines indent false body

/-- A text as a scalar whose further lines have the given indentation. -/
def scalar (indent : Nat) (s : String) : String :=
  let cs := s.toList
  String.ofList <|
    if cs.contains '\n' then if allowsLiteral cs then literal indent cs else doubleQuoted cs
    else if readsAsOther s then doubleQuoted cs
    else if allowsPlain cs then cs
    else if needsEscapes cs then doubleQuoted cs
    else singleQuoted indent cs

end Depends.Yaml
