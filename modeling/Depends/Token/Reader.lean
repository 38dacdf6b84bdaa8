import Depends.Token.States

/-!
A token reader that is bound to a source, or to none yet.
-/
namespace Depends

/-- A reader of tokens over a source. -/
structure TokenReader where
  lex : Lexicon
  source : Option Source := none

namespace TokenReader

/-- Closes the source, which stays bound. -/
def close (reader : TokenReader) : TokenReader :=
  { reader with source := reader.source.map Source.close }

/-- Binds a source, closing the one before. -/
def attach (reader : TokenReader) (source : Source) : TokenReader :=
  { reader with source := some source }

/-- The line of the place reached, and 0 without a source. -/
def line (reader : TokenReader) : Nat :=
  reader.source.elim 0 (·.line)

/-- Nothing is left to read. -/
def atEnd (reader : TokenReader) : Bool × TokenReader :=
  match reader.source with
  | none => (true, reader)
  | some source =>
    let (finished, source) := source.atEnd
    (finished, { reader with source := some source })

/-- The read failure that the source has noticed. -/
def fault (reader : TokenReader) : Option Failure :=
  reader.source.bind (·.fault)

/-- The next token. -/
def next (reader : TokenReader) : Option Token × TokenReader :=
  match reader.source with
  | none => (none, reader)
  | some source =>
    let (token, source) := source.getToken reader.lex (source.remaining.length + 1)
    (token, { reader with source := some source })

end TokenReader

end Depends
