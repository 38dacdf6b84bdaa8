import Depends.Text.Letter

/-!
Tokens, their kinds, and the operator sets that a reader of tokens is told about.
-/
namespace Depends

/-- The classes of lexemes, in the order in which they are tried. -/
inductive TokenKind where
  | whitespace
  | newline
  | word
  | blockComment
  | lineComment
  | pair
  | single
  | doubleQuote
  | singleQuote
  | punct
  deriving DecidableEq, Repr

namespace TokenKind

/-- Every kind, by its number. -/
def all : List TokenKind :=
  [whitespace, newline, word, blockComment, lineComment, pair, single, doubleQuote, singleQuote, punct]

/-- The name of a kind. -/
def name : TokenKind → String
  | whitespace => "whitespace"
  | newline => "newline"
  | word => "alphanum"
  | blockComment => "block-comment"
  | lineComment => "line-comment"
  | pair => "double-punct"
  | single => "single-punct"
  | doubleQuote => "double-quote"
  | singleQuote => "single-quote"
  | punct => "punct"

/-- The kind with a given number. -/
def ofNumber? (n : Int) : Option TokenKind :=
  if n < 0 then none else all[n.toNat]?

/-- The kinds of comments. -/
def isComment : TokenKind → Bool
  | blockComment => true
  | lineComment => true
  | _ => false

end TokenKind

/-- A token: its text, its kind and the line on which it begins. -/
structure Token where
  text : String
  kind : TokenKind
  line : Nat
  deriving DecidableEq, Repr

/-- The operators that are tokens of their own, and whether comments are delivered. -/
structure Lexicon where
  pairs : List (Char × Char)
  singles : List Char
  comments : Bool := true
  deriving Repr

namespace Lexicon

/-- The pair that an operator of two characters stands for; other texts are no pair. -/
def pair? (operator : String) : Option (Char × Char) :=
  match operator.toList with
  | [a, b] => some (a, b)
  | _ => none

/-- The operators of two characters. -/
def standardPairs : List (Char × Char) :=
  [('<', '<'), ('>', '>'), (':', ':'), ('+', '+'), ('-', '-'), ('=', '='), ('+', '='), ('-', '='),
    ('*', '='), ('/', '='), ('&', '&'), ('|', '|'), ('=', '>'), ('&', '='), ('^', '='), ('?', '?'),
    ('!', '='), ('>', '='), ('<', '='), ('?', ':'), ('(', ')'), ('[', ']'), ('?', '.')]

/-- The characters that are always tokens of their own. -/
def standardSingles : List Char :=
  ['<', '>', '[', ']', '(', ')', '\x7b', '\x7d', ':', '=', '+', '-', '*', '/', ';', ',']

/-- The standard operators, with comments delivered. -/
def standard : Lexicon :=
  { pairs := standardPairs, singles := standardSingles }

end Lexicon

end Depends
