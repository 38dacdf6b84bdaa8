import Depends.Text.Fields

/-!
Semi-expressions: the tokens of one grammatical unit with the place they come from.
-/
namespace Depends

/-- The token that opens a body. -/
def openBrace : String := "\x7b"

/-- The token that closes a body. -/
def closeBrace : String := "\x7d"

/-- One grammatical unit. `start` is the line of its first token, `line` the line of its last one. -/
structure Semi where
  tokens : List String
  path : String := ""
  start : Int := 0
  line : Int := 0
  deriving DecidableEq, Repr

namespace Semi

/-- The number of tokens. -/
def size (semi : Semi) : Nat := semi.tokens.length

/-- The token at a position, and the empty text outside. -/
def token (semi : Semi) (i : Int) : String :=
  if i < 0 then "" else semi.tokens.getD i.toNat ""

/-- The last token, and the empty text when there is none. -/
def last (semi : Semi) : String := semi.tokens.getLast?.getD ""

/-- The position of the first occurrence of a token. -/
def find? (semi : Semi) (token : String) : Option Nat := semi.tokens.findIdx? (· == token)

/-- The token before the first occurrence of a token, and the empty text when there is none. -/
def predecessor (semi : Semi) (token : String) : String :=
  match semi.find? token with
  | some (i + 1) => semi.tokens.getD i ""
  | _ => ""

/-- The wanted tokens occur in this order, not necessarily side by side. -/
def isSubsequence (wanted tokens : List String) : Bool :=
  match wanted, tokens with
  | [], _ => true
  | _ :: _, [] => false
  | w :: ws, t :: ts => if w == t then isSubsequence ws ts else isSubsequence (w :: ws) ts

/-- The tokens occur in this order in the semi-expression. -/
def hasSequence (semi : Semi) (wanted : List String) : Bool := isSubsequence wanted semi.tokens

/-- The last token is a semicolon or a brace. -/
def hasTerminator (semi : Semi) : Bool :=
  semi.last == ";" || semi.last == openBrace || semi.last == closeBrace

/-- Other tokens from the same place. -/
def withTokens (semi : Semi) (tokens : List String) : Semi := { semi with tokens }

/-- The tokens from one position up to another one, when both are in range and in order. -/
def slice? (semi : Semi) (first last : Int) : Option Semi :=
  if 0 ≤ first ∧ first ≤ last ∧ last ≤ semi.size then
    some (semi.withTokens ((semi.tokens.take last.toNat).drop first.toNat))
  else none

/-- The tokens with blanks between them. -/
def text (semi : Semi) : String := Text.join " " semi.tokens

end Semi

end Depends
