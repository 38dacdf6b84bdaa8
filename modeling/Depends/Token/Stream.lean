import Depends.Source
import Depends.Token.Chunk

/-!
Reading tokens off a text. White space is never delivered and comments only on request; every other
chunk is a token, whose line is one plus the number of line feeds before it. A run of line feeds is one
token.
-/
namespace Depends

/-- A place in a text with normalized line ends. -/
structure Cursor where
  rest : List Char
  line : Nat := 1
  deriving DecidableEq, Repr

/-- The start of a text. -/
def Cursor.ofText (text : List Char) : Cursor :=
  { rest := normalizeLines text }

/-- The text of the token that a chunk makes. -/
def Chunk.text (piece : Chunk) : String :=
  if piece.kind = .newline then "\n" else String.ofList piece.raw

/-- Chunks that make no token. -/
def Lexicon.skips (lex : Lexicon) (kind : TokenKind) : Bool :=
  kind == .whitespace || (kind.isComment && !lex.comments)

/-- The next token of a text that stands on the given line, and the place after it. -/
def nextToken (lex : Lexicon) : List Char → Nat → Option Token × Cursor
  | [], line => (none, ⟨[], line⟩)
  | c :: cs, line =>
    let piece := chunk lex c cs
    let after := line + piece.raw.count '\n'
    if lex.skips piece.kind then nextToken lex piece.rest after
    else (some ⟨piece.text, piece.kind, line⟩, ⟨piece.rest, after⟩)
termination_by cs => cs.length
decreasing_by exact chunk_rest_lt lex c cs

/-- Reading a token never moves back. -/
theorem nextToken_rest_le (lex : Lexicon) (cs : List Char) (line : Nat) :
    (nextToken lex cs line).2.rest.length ≤ cs.length := by
  fun_induction nextToken lex cs line with
  | case1 line => simp
  | case2 c cs line piece after skips ih =>
    exact Nat.le_trans ih (Nat.le_of_lt (chunk_rest_lt lex c cs))
  | case3 c cs line piece after keeps => exact Nat.le_of_lt (chunk_rest_lt lex c cs)

/-- A token takes at least one character. -/
theorem nextToken_rest_lt (lex : Lexicon) (cs : List Char) (line : Nat) (token : Token) (place : Cursor)
    (found : nextToken lex cs line = (some token, place)) : place.rest.length < cs.length := by
  fun_induction nextToken lex cs line with
  | case1 line => simp at found
  | case2 c cs line piece after skips ih => exact Nat.lt_trans (ih found) (chunk_rest_lt lex c cs)
  | case3 c cs line piece after keeps =>
    obtain ⟨-, rfl⟩ := Prod.mk.inj found
    exact chunk_rest_lt lex c cs

/-- All tokens of a text, each with the line of the place after it, and the line of the end. -/
def tokensWithLines (lex : Lexicon) (cs : List Char) (line : Nat) : List (Token × Nat) × Nat :=
  match _found : nextToken lex cs line with
  | (none, place) => ([], place.line)
  | (some token, place) =>
    let (more, last) := tokensWithLines lex place.rest place.line
    ((token, place.line) :: more, last)
termination_by cs.length
decreasing_by exact nextToken_rest_lt lex cs line token place _found

/-- All tokens of a text. -/
def tokens (lex : Lexicon) (text : List Char) : List Token :=
  (tokensWithLines lex (normalizeLines text) 1).1.map (·.1)

end Depends
