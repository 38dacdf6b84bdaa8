import Depends.Files.Tree
import Depends.Settings.Environment

/-!
Files of variable assignments, one to a line: `NAME=value` or `NAME: value`, maybe after `export`. A
value is bare and may have a comment after a blank, or it stands in quotes. Earlier names of the file can
be used in bare and double-quoted values. A file is cut by its bytes, and the parts are read as text.
-/
namespace Depends.DotEnv

/-- White space that ends no line. -/
def isGap (c : Char) : Bool :=
  c == '\t' || c == '\x0b' || c == '\x0c' || c == '\r' || c == ' ' || c.toNat == 0x85 || c.toNat == 0xa0

/-- The byte of an ASCII character. -/
def byte (c : Char) : UInt8 := c.toUInt8

/-- The end of a line. -/
def isLineEnd (b : UInt8) : Bool := b == byte '\n' || b == byte '\r'

/-- Line ends of two bytes become one. -/
def joinLineEnds : List UInt8 → List UInt8
  | a :: b :: bytes =>
    if a == byte '\r' && b == byte '\n' then b :: joinLineEnds bytes else a :: joinLineEnds (b :: bytes)
  | bytes => bytes

/-- The bytes from the first character on that is none of the given. -/
def dropChars (dropped : Char → Bool) (bytes : List UInt8) : List UInt8 :=
  match (Text.places 0 bytes).find? fun (_, c) => !dropped c with
  | some (i, _) => bytes.drop i
  | none => []

/-- The start of the next assignment, after white space and comments. -/
def nextStart : Nat → List UInt8 → List UInt8
  | 0, bytes => bytes
  | fuel + 1, bytes =>
    match dropChars Text.isSpace bytes with
    | [] => []
    | b :: rest =>
      if b == byte '#' then nextStart fuel (rest.dropWhile (· != byte '\n')) else b :: rest

/-- A byte that a name may have when it is read as a character of its own. -/
def isNameByte (b : UInt8) : Bool :=
  let c := Char.ofNat b.toNat
  Text.isLetter c || c.isDigit || c == '_' || c == '.' || isGap c ||
    [0xb2, 0xb3, 0xb9, 0xbc, 0xbd, 0xbe].contains b.toNat

/-- The bytes after the word `export` and the gap behind it. -/
def skipExport (bytes : List UInt8) : List UInt8 :=
  let word := Text.encode "export"
  let rest := bytes.drop word.length
  let after := dropChars isGap rest
  if word.isPrefixOf bytes && after.length < rest.length then after else bytes

/-- The name of an assignment and the bytes of its value. Without a mark the name is empty and all is
value. -/
def name? (bytes : List UInt8) : Option (String × List UInt8) :=
  let bytes := skipExport (dropChars isGap bytes)
  let name := bytes.takeWhile isNameByte
  match bytes.drop name.length with
  | [] => if bytes.isEmpty then none else some ("", dropChars isGap bytes)
  | mark :: rest =>
    if mark == byte '=' || mark == byte ':' then
      let name := ((Text.decode name).reverse.dropWhile Text.isSpace).reverse
      some (String.ofList name, dropChars isGap rest)
    else none

/-- A character of a variable name. -/
def isVariableChar (c : Char) : Bool := ('A' ≤ c && c ≤ 'Z') || c.isDigit || c == '_'

/-- A use of a variable after its dollar sign: the name and the rest. -/
def variableUse (cs : List Char) : List Char × List Char :=
  let cs := match cs with
    | '(' :: rest => rest
    | _ => cs
  let cs := match cs with
    | '\x7b' :: rest => rest
    | _ => cs
  let name := cs.takeWhile isVariableChar
  match cs.drop name.length with
  | '\x7d' :: rest => (name, rest)
  | rest => (name, rest)

/-- Replaces the uses of variables; a use without a name stays, and a backslash in front keeps a use as
it is. -/
def expand (vars : Environment) : Nat → List Char → List Char
  | 0, cs => cs
  | _, [] => []
  | fuel + 1, '\\' :: '$' :: cs =>
    let (_, rest) := variableUse cs
    '$' :: cs.take (cs.length - rest.length) ++ expand vars fuel rest
  | fuel + 1, '$' :: cs =>
    let (name, rest) := variableUse cs
    (if name.isEmpty then '$' :: cs.take (cs.length - rest.length)
      else ((vars.lookup (String.ofList name)).getD "").toList) ++ expand vars fuel rest
  | fuel + 1, c :: cs => c :: expand vars fuel cs

/-- Replaces the escapes of line ends. -/
def replaceLineEscapes : List Char → List Char
  | '\\' :: 'n' :: cs => '\n' :: replaceLineEscapes cs
  | '\\' :: 'r' :: cs => '\r' :: replaceLineEscapes cs
  | '\\' :: c :: cs =>
    if c = '\n' then '\\' :: replaceLineEscapes (c :: cs) else '\\' :: c :: replaceLineEscapes cs
  | c :: cs => c :: replaceLineEscapes cs
  | [] => []

/-- Drops the backslash before any character but a dollar sign. -/
def dropEscapes : List Char → List Char
  | '\\' :: c :: cs => if c = '$' then '\\' :: dropEscapes (c :: cs) else c :: dropEscapes cs
  | c :: cs => c :: dropEscapes cs
  | [] => []

/-- The text before the last number sign that follows a gap. -/
def dropComment (cs : List Char) : List Char :=
  let starts := (List.range cs.length).filter fun i =>
    0 < i && cs[i]? == some '#' && (cs[i - 1]?).any isGap
  match starts.getLast? with
  | some i => cs.take i
  | none => cs

/-- A bare value: the line without comment and outer gaps. -/
def bareValue (vars : Environment) (bytes : List UInt8) : String × List UInt8 :=
  let line := bytes.takeWhile (!isLineEnd ·)
  let body := ((dropComment (Text.decode line)).dropWhile isGap).reverse.dropWhile isGap |>.reverse
  (String.ofList (expand vars body.length body), bytes.drop line.length)

/-- The inside of a quoted value up to a closing quote without backslash in front, and the rest. -/
def quotedBody? (quote : UInt8) : UInt8 → List UInt8 → Option (List UInt8 × List UInt8)
  | _, [] => none
  | before, b :: bytes =>
    if b == quote && before != byte '\\' then some ([], bytes)
    else (quotedBody? quote b bytes).map fun (body, rest) => (b :: body, rest)

/-- A value in quotes. Quotes at the ends of its inside are dropped too. -/
def quotedValue? (vars : Environment) (quote : UInt8) (bytes : List UInt8) :
    Option (String × List UInt8) :=
  (quotedBody? quote quote bytes).map fun (body, rest) =>
    let body := Text.decode (((body.reverse.dropWhile (· == quote)).reverse).dropWhile (· == quote))
    if quote == byte '"' then
      let body := dropEscapes (replaceLineEscapes body)
      (String.ofList (expand vars body.length body), rest)
    else (String.ofList body, rest)

/-- A value and the rest. -/
def value? (vars : Environment) (bytes : List UInt8) : Option (String × List UInt8) :=
  match bytes with
  | b :: rest =>
    if b == byte '"' || b == byte '\x27' then quotedValue? vars b rest else some (bareValue vars bytes)
  | [] => some ("", [])

/-- Sets a variable; a later value replaces an earlier one. -/
def set (vars : Environment) (name value : String) : Environment :=
  if (vars.lookup name).isSome then vars.map fun pair => if pair.1 == name then (name, value) else pair
  else vars ++ [(name, value)]

/-- The assignments of a text after those found so far. -/
def assignments? : Nat → Environment → List UInt8 → Option Environment
  | 0, vars, _ => some vars
  | fuel + 1, vars, bytes =>
    match nextStart bytes.length bytes with
    | [] => some vars
    | start => do
      let (name, rest) ← name? start
      let (value, rest) ← value? vars rest
      assignments? fuel (set vars name value) rest

/-- The variables of a file; one that cannot be read has none. -/
def read (content : List UInt8) : Environment :=
  let bytes := joinLineEnds content
  (assignments? (bytes.length + 1) [] bytes).getD []

/-- Adds the variables of the files at some paths to an environment; variables that are set stay. -/
def load (files : Files) (env : Environment) (paths : List String) : Environment :=
  paths.foldl (fun env path =>
    match files.read path with
    | .error _ => env
    | .ok data => env.addMissing (read data)) env

end Depends.DotEnv
