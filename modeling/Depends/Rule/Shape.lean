import Depends.Semi.Basic
import Depends.Declaration.Basic

/-!
Shapes in the tokens of a semi-expression: names, keywords, parameter and generic argument lists,
directives and dotted names.
-/
namespace Depends

open Depends.Text (isName)

/-- The words that open a type body. -/
def typeWords : List String := ["class", "struct", "interface", "enum"]

/-- The words that never name a type of the sources. -/
def reservedWords : List String :=
  ["abstract", "as", "base", "bool", "break", "byte", "case", "catch", "char", "checked", "class",
    "const", "continue", "decimal", "default", "delegate", "do", "double", "else", "enum", "event",
    "explicit", "extern", "false", "finally", "fixed", "float", "for", "foreach", "goto", "if",
    "implicit", "in", "int", "interface", "internal", "is", "lock", "long", "namespace", "new", "null",
    "object", "operator", "out", "override", "params", "private", "protected", "public", "readonly",
    "ref", "return", "sbyte", "sealed", "short", "sizeof", "stackalloc", "static", "string", "struct",
    "switch", "this", "throw", "true", "try", "typeof", "uint", "ulong", "unchecked", "unsafe", "ushort",
    "using", "virtual", "void", "volatile", "while", "var", "get", "set", "value", "partial", "async",
    "await", "record", "where", "dynamic", "nameof", "add", "remove", "yield", "global", "init",
    "required"]

/-- A token that may name a type. -/
def isTypeName (token : String) : Bool := isName token && !reservedWords.contains token

/-- The position of the first word that opens a type body. -/
def typeWord? (tokens : List String) : Option Nat := tokens.findIdx? typeWords.contains

/-- A parameter list begins here. -/
def opensParen (token : String) : Bool := token == "(" || token == "()"

/-- The position of the first parameter list from a position on. -/
def paren? (tokens : List String) (start : Nat) : Option Nat :=
  ((tokens.drop start).findIdx? opensParen).map (· + start)

/-- What a token adds to the depth of a generic argument list that is read backwards. -/
def angleWeight (token : String) : Int :=
  if token = ">" then 1
  else if token = ">>" then 2
  else if token = "<" then -1
  else if token = "<<" then -2
  else 0

/-- The tokens before a generic argument list, all read backwards. The list ends where the depth is
back at zero. -/
def skipAngles : Int → List String → List String
  | _, [] => []
  | depth, token :: before =>
    let depth := depth + angleWeight token
    if depth ≤ 0 then before else skipAngles depth before

/-- The tokens before position `p`, read backwards, without a generic argument list at their end. -/
def beforeGenerics (tokens : List String) (p : Nat) : List String :=
  match (tokens.take p).reverse with
  | [] => []
  | token :: before =>
    if token = ">" ∨ token = ">>" then skipAngles 0 (token :: before) else token :: before

/-- The token that ends just before position `p`, not counting one generic argument list, with its
position; no token when the tokens start there. -/
def nameBefore (tokens : List String) (p : Nat) : Option (String × Nat) :=
  match beforeGenerics tokens p with
  | [] => none
  | name :: before => some (name, before.length)

/-- The position of the import keyword of a directive, which may follow `global`. -/
def usingStart? (tokens : List String) : Option Nat :=
  match tokens with
  | "using" :: _ => some 0
  | "global" :: "using" :: _ => some 1
  | _ => none

/-- An alias directive: an import keyword, a name, an equals sign, and a semicolon at the end. -/
def isAliasDirective (tokens : List String) : Bool :=
  match usingStart? tokens with
  | none => false
  | some start =>
    tokens.getLast? == some ";" && tokens[start + 2]? == some "=" && isName (tokens.getD (start + 1) "")

/-- The tokens without the separators of dotted names. -/
def stripDots (tokens : List String) : List String := tokens.filter fun t => t != "." && t != "::"

/-- The name at the end of the tokens, read backwards, with the names that dots join to its front. -/
def dottedBack : List String → List String
  | name :: "." :: outer :: before =>
    if isName outer then name :: "." :: dottedBack (outer :: before) else [name]
  | name :: _ => [name]
  | [] => []

/-- The name at a position with its dotted qualifier in front, without the dots. -/
def qualifiedAt (tokens : List String) (i : Nat) : List String :=
  stripDots (dottedBack (tokens.take (i + 1)).reverse).reverse

/-- For each possible type name from a position on, the name with its qualifier. For `A.B.C` these are
`A`, `A B` and `A B C`. Names to skip give none. -/
def qualifiedGroups (tokens : List String) (start : Nat) (skip : List String) : List (List String) :=
  (List.range tokens.length).filterMap fun i =>
    let token := tokens.getD i ""
    if start ≤ i ∧ isTypeName token ∧ ¬ skip.contains token then some (qualifiedAt tokens i) else none

/-- A type declaration that opens a body: its keyword's position, the keyword and the name. -/
def typeHeader? (tokens : List String) : Option (Nat × String × String) :=
  if tokens.getLast? = some openBrace then
    match typeWord? tokens with
    | none => none
    | some i =>
      let name := tokens.getD (i + 1) ""
      if isName name then some (i, tokens.getD i "", name) else none
  else none

/-- The names between the brackets of a generic parameter list at a position, and the position where
the list ends. Without a list there are no names and the position stays. -/
def genericParameters (tokens : List String) (start : Nat) : List String × Nat :=
  if tokens[start]? = some "<" then
    let inner := (tokens.drop start).takeWhile (· != ">")
    (inner.filter isName, start + inner.length)
  else ([], start)

end Depends
