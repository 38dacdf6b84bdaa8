import Depends.Toml.Scalar

/-!
Reading the statements of a TOML document: headers and assignments, one to a line, with comments.
-/
namespace Depends.Toml

open Depends.Text

/-- A character of a bare key. -/
def isBare (c : Char) : Bool := c.isAlphanum || c == '_' || c == '-'

/-- One name of a key. -/
def name? (cs : List Char) : Option (String × List Char) :=
  match cs with
  | '"' :: rest => (basicText? rest.length rest).map fun (chars, rest) => (String.ofList chars, rest)
  | '\x27' :: rest => (rawText? rest).map fun (chars, rest) => (String.ofList chars, rest)
  | _ =>
    let chars := cs.takeWhile isBare
    if chars.isEmpty then none else some (String.ofList chars, cs.drop chars.length)

/-- A dotted key, and what follows its blanks. -/
def key? : Nat → List Char → Option (List String × List Char)
  | 0, _ => none
  | fuel + 1, cs =>
    match name? (skipBlanks cs) with
    | none => none
    | some (name, rest) =>
      match skipBlanks rest with
      | '.' :: rest => (key? fuel rest).map fun (names, rest) => (name :: names, rest)
      | rest => some ([name], rest)

/-- What follows a comment, its line end included in what follows. -/
def skipComment (cs : List Char) : List Char := cs.dropWhile (!isLineEnd ·)

/-- What follows blanks, line ends and comments. -/
def skipGap : Nat → List Char → List Char
  | 0, cs => cs
  | fuel + 1, cs =>
    match cs.dropWhile fun c => isBlank c || isLineEnd c with
    | '#' :: rest => skipGap fuel (skipComment rest)
    | rest => rest

mutual

/-- A value of any kind. -/
def value? : Nat → List Char → Option (Expr × List Char)
  | 0, _ => none
  | fuel + 1, cs =>
    match skipBlanks cs with
    | '[' :: rest => (items? fuel rest).map fun (items, rest) => (.list items, rest)
    | '\x7b' :: rest => (entries? fuel rest).map fun (fields, rest) => (.inline fields, rest)
    | rest => scalar? rest

/-- The items of a list up to its closing bracket; a comma may follow the last one. -/
def items? : Nat → List Char → Option (List Expr × List Char)
  | 0, _ => none
  | fuel + 1, cs =>
    match skipGap cs.length cs with
    | ']' :: rest => some ([], rest)
    | rest => do
      let (item, rest) ← value? fuel rest
      match skipGap rest.length rest with
      | ',' :: rest =>
        let (items, rest) ← items? fuel rest
        return (item :: items, rest)
      | ']' :: rest => return ([item], rest)
      | _ => none

/-- The entries of an inline table up to its closing brace; a comma may follow the last one. -/
def entries? : Nat → List Char → Option (List (List String × Expr) × List Char)
  | 0, _ => none
  | fuel + 1, cs =>
    match skipGap cs.length cs with
    | '\x7d' :: rest => some ([], rest)
    | rest => do
      let (key, rest) ← key? rest.length rest
      match rest with
      | '=' :: rest =>
        let (value, rest) ← value? fuel rest
        match skipGap rest.length rest with
        | ',' :: rest =>
          let (entries, rest) ← entries? fuel rest
          return ((key, value) :: entries, rest)
        | '\x7d' :: rest => return ([(key, value)], rest)
        | _ => none
      | _ => none

end

/-- A statement at the start of the characters. -/
def statement? (cs : List Char) : Option (Statement × List Char) :=
  match cs with
  | '[' :: '[' :: rest => do
    let (key, rest) ← key? rest.length rest
    match rest with
    | ']' :: ']' :: rest => return (.another key, rest)
    | _ => none
  | '[' :: rest => do
    let (key, rest) ← key? rest.length rest
    match rest with
    | ']' :: rest => return (.table key, rest)
    | _ => none
  | cs => do
    let (key, rest) ← key? cs.length cs
    match rest with
    | '=' :: rest =>
      let (value, rest) ← value? rest.length rest
      return (.assign key value, rest)
    | _ => none

/-- The statements of a document. After a statement its line ends, maybe with a comment. -/
def statements? : Nat → List Char → Option (List Statement)
  | 0, cs => if cs.isEmpty then some [] else none
  | fuel + 1, cs =>
    match skipGap cs.length cs with
    | [] => some []
    | rest => do
      let (statement, rest) ← statement? rest
      match skipBlanks rest with
      | [] => return [statement]
      | c :: rest =>
        if c = '#' || isLineEnd c then
          let more ← statements? fuel (if c = '#' then skipComment rest else rest)
          return statement :: more
        else none

/-- A control character that no document may have. A carriage return stands before a line feed only. -/
def hasStrayControl : List Char → Bool
  | [] => false
  | '\r' :: '\n' :: cs => hasStrayControl cs
  | c :: cs => (c != '\t' && c != '\n' && (c.toNat < 0x20 || c.toNat == 0x7f)) || hasStrayControl cs

/-- The statements of a document given as bytes, which may begin with a byte order mark. -/
def parse? (data : List UInt8) : Option (List Statement) :=
  let data :=
    match data with
    | 0xef :: 0xbb :: 0xbf :: rest => rest
    | 0xff :: 0xfe :: rest => rest
    | 0xfe :: 0xff :: rest => rest
    | _ => data
  let cs := decode data
  if isWellFormed data && !hasStrayControl cs then statements? (cs.length + 1) cs else none

end Depends.Toml
