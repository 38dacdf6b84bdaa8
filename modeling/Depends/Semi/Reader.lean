import Depends.Semi.Stream
import Depends.Token.Reader

/-!
A reader of semi-expressions that is bound to a source under a path, or to none yet.
-/
namespace Depends

/-- A reader of semi-expressions. `exhausted` says that the last read met the end of the source. -/
structure SemiReader where
  tokens : TokenReader
  path : String := ""
  exhausted : Bool := false

namespace SemiReader

/-- Binds a source under a path. -/
def attach (reader : SemiReader) (path : String) (source : Source) : SemiReader :=
  { tokens := reader.tokens.attach source, path }

/-- Takes in tokens until one ends the unit. Every round takes a token off `budget` characters. -/
def collect : Nat → Gathering → TokenReader → Gathering × Bool × TokenReader
  | 0, unit, tokens => (unit, true, tokens.next.2)
  | budget + 1, unit, tokens =>
    match tokens.next with
    | (none, tokens) => (unit, true, tokens)
    | (some token, tokens) =>
      if token.kind.isComment then collect budget unit tokens
      else
        let unit := unit.add token
        if unit.absorbs token then collect budget { unit with owed := unit.owed - 1 } tokens
        else if unit.endsWith token then (unit, false, tokens)
        else collect budget unit tokens

/-- The next semi-expression; an empty one means that the source has ended. -/
def next (reader : SemiReader) : Semi × SemiReader :=
  let budget := reader.tokens.source.elim 0 (·.remaining.length)
  let (unit, exhausted, tokens) := collect budget { line := reader.tokens.line } reader.tokens
  (unit.toSemi reader.path, { reader with tokens, exhausted := reader.exhausted || exhausted })

end SemiReader

end Depends
