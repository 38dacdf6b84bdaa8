import Depends.Semi.Basic
import Depends.Token.Stream

/-!
Reading semi-expressions off a text. A unit ends at a semicolon or a brace, at a colon after a leading
`case` or `default`, at the bracket that closes a leading attribute, and at the line end of a directive.
The two semicolons inside the head of a `for` do not end it. Units keep every token that is neither a
comment nor a line end, in order.
-/
namespace Depends

/-- A unit under construction. `owed` is the number of semicolons that still belong to `for` heads. -/
structure Gathering where
  tokens : List String := []
  start : Nat := 0
  line : Nat
  owed : Nat := 0
  deriving DecidableEq, Repr

namespace Gathering

/-- Takes in a token that is no comment. A line end only moves the line. -/
def add (unit : Gathering) (token : Token) : Gathering :=
  let unit := { unit with line := token.line }
  let unit :=
    if token.kind = .newline then unit
    else
      { unit with
        tokens := unit.tokens ++ [token.text]
        start := if unit.tokens.isEmpty then token.line else unit.start }
  if token.kind = .word ∧ token.text = "for" then { unit with owed := unit.owed + 2 } else unit

/-- The unit ends with the token that it just took in. -/
def endsWith (unit : Gathering) (token : Token) : Bool :=
  let first := unit.tokens.head?.getD ""
  if token.kind = .newline then first == "#"
  else if token.text = ";" ∨ token.text = openBrace ∨ token.text = closeBrace then true
  else if token.text = ":" then first == "case" || first == "default"
  else if token.text = "]" then first == "["
  else false

/-- The semicolon just taken in belongs to the head of a `for`. -/
def absorbs (unit : Gathering) (token : Token) : Bool :=
  token.text == ";" && 0 < unit.owed

end Gathering

/-- A unit that was read, whether the text ended first, and the place after it. -/
structure Gathered where
  unit : Gathering
  exhausted : Bool
  place : Cursor
  deriving DecidableEq, Repr

/-- Reads tokens into a unit until one ends it. -/
def gather (lex : Lexicon) (unit : Gathering) (cs : List Char) (line : Nat) : Gathered :=
  match _found : nextToken lex cs line with
  | (none, place) => ⟨unit, true, place⟩
  | (some token, place) =>
    if token.kind.isComment then gather lex unit place.rest place.line
    else
      let unit := unit.add token
      if unit.absorbs token then gather lex { unit with owed := unit.owed - 1 } place.rest place.line
      else if unit.endsWith token then ⟨unit, false, place⟩
      else gather lex unit place.rest place.line
termination_by cs.length
decreasing_by all_goals exact nextToken_rest_lt lex cs line token place _found

/-- Reading a unit never moves back. -/
theorem gather_rest_le (lex : Lexicon) (unit : Gathering) (cs : List Char) (line : Nat) :
    (gather lex unit cs line).place.rest.length ≤ cs.length := by
  fun_induction gather lex unit cs line with
  | case1 unit cs line place found =>
    have le := nextToken_rest_le lex cs line
    rw [found] at le
    exact le
  | case2 unit cs line token place found _ ih =>
    exact Nat.le_trans ih (Nat.le_of_lt (nextToken_rest_lt lex cs line token place found))
  | case3 unit cs line token place found _ _ _ ih =>
    exact Nat.le_trans ih (Nat.le_of_lt (nextToken_rest_lt lex cs line token place found))
  | case4 unit cs line token place found =>
    exact Nat.le_of_lt (nextToken_rest_lt lex cs line token place found)
  | case5 unit cs line token place found _ _ _ _ ih =>
    exact Nat.le_trans ih (Nat.le_of_lt (nextToken_rest_lt lex cs line token place found))

/-- A unit that gained a token took at least one character. -/
theorem gather_rest_lt (lex : Lexicon) (unit : Gathering) (cs : List Char) (line : Nat)
    (gained : (gather lex unit cs line).unit.tokens ≠ unit.tokens) :
    (gather lex unit cs line).place.rest.length < cs.length := by
  fun_induction gather lex unit cs line with
  | case1 unit cs line place found => exact absurd rfl gained
  | case2 unit cs line token place found =>
    exact Nat.lt_of_le_of_lt (gather_rest_le ..) (nextToken_rest_lt lex cs line token place found)
  | case3 unit cs line token place found =>
    exact Nat.lt_of_le_of_lt (gather_rest_le ..) (nextToken_rest_lt lex cs line token place found)
  | case4 unit cs line token place found => exact nextToken_rest_lt lex cs line token place found
  | case5 unit cs line token place found =>
    exact Nat.lt_of_le_of_lt (gather_rest_le ..) (nextToken_rest_lt lex cs line token place found)

/-- The unit as a semi-expression of a file. -/
def Gathering.toSemi (unit : Gathering) (path : String) : Semi :=
  { tokens := unit.tokens, path, start := unit.start, line := unit.line }

/-- A semi-expression that was read, whether the text ended first, and the line reached. -/
structure SemiRead where
  semi : Semi
  exhausted : Bool
  lineAfter : Nat
  deriving DecidableEq, Repr

/-- The semi-expressions up to the first empty one, and that empty one. -/
def semiReads (lex : Lexicon) (path : String) (cs : List Char) (line : Nat) : List SemiRead × SemiRead :=
  let result := gather lex { line } cs line
  let read : SemiRead := ⟨result.unit.toSemi path, result.exhausted, result.place.line⟩
  if _gained : result.unit.tokens = [] then ([], read)
  else
    let (more, last) := semiReads lex path result.place.rest result.place.line
    (read :: more, last)
termination_by cs.length
decreasing_by exact gather_rest_lt lex { line } cs line _gained

/-- The semi-expressions of a file's text. -/
def semis (lex : Lexicon) (path : String) (text : List Char) : List Semi :=
  (semiReads lex path (normalizeLines text) 1).1.map (·.semi)

end Depends
