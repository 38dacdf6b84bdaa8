import Depends.Token.Stream

/-!
The classes of tokens as they are tried on a source. A class finds out by looking ahead whether a token of it
starts where the source stands, and takes the token off the source character by character. The first class
that starts a token takes it. A loop consumes a character in every round, so a budget that is greater than the
number of characters left is never used up.
-/
namespace Depends

/-- The classes in the order in which their start conditions are tried, the fallback class apart. -/
def claimants : List TokenKind :=
  [.newline, .whitespace, .word, .blockComment, .lineComment, .pair, .single, .doubleQuote, .singleQuote]

/-- The classes in the order in which their start conditions are tried. -/
def priority : List TokenKind := claimants ++ [.punct]

namespace Source

/-! ### Where a token starts -/

/-- Two characters stand here. The second one is looked at only when the first one is right. -/
def startsWith (first second : Char) (s : Source) : Bool × Source :=
  let (c, s) := s.peek 0
  if c = some first then
    let (d, s) := s.peek 1
    (d == some second, s)
  else (false, s)

/-- A mark that may stand in front of the quote of a string. -/
def isMark (c : Option Char) : Bool := c == some '@' || c == some '$'

/-- The number of characters up to and including the opening quote of a string, and 0 when no string opens
here. -/
def quoteSize (s : Source) : Nat × Source :=
  let (a, s) := s.peek 0
  if a = some '"' then (1, s)
  else if isMark a then
    let (b, s) := s.peek 1
    if b = some '"' then (2, s)
    else if isMark b ∧ a ≠ b then
      let (c, s) := s.peek 2
      (if c = some '"' then 3 else 0, s)
    else (0, s)
  else (0, s)

/-- A character literal opens here, as far as four characters show. -/
def startsCharacter (s : Source) : Bool × Source :=
  let (a, s) := s.peek 0
  if a = some '\'' then
    let (b, s) := s.peek 1
    if b = some '\\' then
      let (d, s) := s.peek 3
      (d == some '\'', s)
    else if b = none then (false, s)
    else
      let (c, s) := s.peek 2
      (c == some '\'', s)
  else (false, s)

/-- A token of a class starts here, the other classes left aside. -/
def startsToken (lex : Lexicon) (s : Source) : TokenKind → Bool × Source
  | .newline =>
    let (c, s) := s.peek 0
    (c == some '\n', s)
  | .whitespace =>
    let (c, s) := s.peek 0
    (c.any isBlankChar, s)
  | .word =>
    let (c, s) := s.peek 0
    (c.any Text.isWord, s)
  | .blockComment => s.startsWith '/' '*'
  | .lineComment => s.startsWith '/' '/'
  | .pair =>
    let (a, s) := s.peek 0
    let (b, s) := s.peek 1
    (a.any fun a => b.any fun b => lex.pairs.contains (a, b), s)
  | .single =>
    let (c, s) := s.peek 0
    (c.any lex.singles.contains, s)
  | .doubleQuote =>
    let (size, s) := s.quoteSize
    (size != 0, s)
  | .singleQuote => s.startsCharacter
  | .punct =>
    let (ended, s) := s.atEnd
    (!ended, s)

/-- The first of some classes of which a token starts here. -/
def firstStart (lex : Lexicon) : List TokenKind → Source → Option TokenKind × Source
  | [], s => (none, s)
  | kind :: kinds, s =>
    let (here, s) := s.startsToken lex kind
    if here then (some kind, s) else firstStart lex kinds s

/-! ### Where it ends -/

/-- Consumes a character for a text; past the end the text gets the mark for what is no character. -/
def shift (s : Source) : Char × Source :=
  let (c, s) := s.next
  (c.getD Text.replacement, s)

/-- Consumes a number of characters. -/
def shiftMany : Nat → Source → List Char × Source
  | 0, s => ([], s)
  | count + 1, s =>
    let (c, s) := s.shift
    let (more, s) := shiftMany count s
    (c :: more, s)

/-- Consumes characters as long as they belong to the token. -/
def scanWhile (keeps : Char → Bool) : Nat → Source → List Char × Source
  | 0, s => ([], s)
  | budget + 1, s =>
    let (c, s) := s.peek 0
    if c.any keeps then
      let (c, s) := s.shift
      let (run, s) := scanWhile keeps budget s
      (c :: run, s)
    else ([], s)

/-- The rest of a block comment up to its closing, or to the end. -/
def scanComment : Nat → Source → List Char × Source
  | 0, s => ([], s)
  | budget + 1, s =>
    let (ended, s) := s.atEnd
    if ended then ([], s)
    else
      let (closes, s) := s.startsWith '*' '/'
      if closes then s.shiftMany 2
      else
        let (c, s) := s.shift
        let (body, s) := scanComment budget s
        (c :: body, s)

/-- The rest of a verbatim string up to a quote that is not doubled, or to the end. -/
def scanVerbatim : Nat → Source → List Char × Source
  | 0, s => ([], s)
  | budget + 1, s =>
    let (ended, s) := s.atEnd
    if ended then ([], s)
    else
      let (c, s) := s.shift
      if c = '"' then
        let (d, s) := s.peek 0
        if d = some '"' then
          let (d, s) := s.shift
          let (body, s) := scanVerbatim budget s
          (c :: d :: body, s)
        else ([c], s)
      else
        let (body, s) := scanVerbatim budget s
        (c :: body, s)

/-- The rest of a literal up to a closing quote after an even number of backslashes, or to the end. -/
def scanEscaped (quote : Char) : Nat → Nat → Source → List Char × Source
  | _, 0, s => ([], s)
  | backslashes, budget + 1, s =>
    let (ended, s) := s.atEnd
    if ended then ([], s)
    else
      let (c, s) := s.shift
      if c = quote ∧ backslashes % 2 = 0 then ([c], s)
      else
        let (body, s) := scanEscaped quote (if c = '\\' then backslashes + 1 else 0) budget s
        (c :: body, s)

/-- The characters before the first place where another class starts a token. -/
def scanUnclaimed (lex : Lexicon) : Nat → Source → List Char × Source
  | 0, s => ([], s)
  | budget + 1, s =>
    let (ended, s) := s.atEnd
    if ended then ([], s)
    else
      let (claim, s) := s.firstStart lex claimants
      if claim.isSome then ([], s)
      else
        let (c, s) := s.shift
        let (run, s) := scanUnclaimed lex budget s
        (c :: run, s)

/-- Takes a token of a class. A run of line feeds is one line feed. -/
def extract (lex : Lexicon) (budget : Nat) (s : Source) : TokenKind → List Char × Source
  | .newline =>
    let (_, s) := s.shift
    let (_, s) := s.scanWhile (· == '\n') budget
    (['\n'], s)
  | .whitespace => s.scanWhile isBlankChar budget
  | .word => s.scanWhile Text.isWord budget
  | .blockComment =>
    let (mark, s) := s.shiftMany 2
    let (body, s) := s.scanComment budget
    (mark ++ body, s)
  | .lineComment => s.scanWhile (· != '\n') budget
  | .pair => s.shiftMany 2
  | .single => s.shiftMany 1
  | .doubleQuote =>
    let (size, s) := s.quoteSize
    let (mark, s) := s.shiftMany size
    let (body, s) := if mark.contains '@' then s.scanVerbatim budget else s.scanEscaped '"' 0 budget
    (mark ++ body, s)
  | .singleQuote =>
    let (c, s) := s.shift
    let (body, s) := s.scanEscaped '\'' 0 budget
    (c :: body, s)
  | .punct =>
    let (c, s) := s.shift
    let (run, s) := s.scanUnclaimed lex budget
    (c :: run, s)

/-- The next token that is not skipped. Where no class starts a token, the fallback class takes one. -/
def getToken (lex : Lexicon) : Nat → Source → Option Token × Source
  | 0, s => (none, s)
  | budget + 1, s =>
    let (ended, s) := s.atEnd
    if ended then (none, s)
    else
      let line := s.line
      let (kind, s) := s.firstStart lex priority
      let kind := kind.getD .punct
      let (text, s) := s.extract lex (budget + 1) kind
      if lex.skips kind then getToken lex budget s
      else (some ⟨String.ofList text, kind, line⟩, s)

end Source

end Depends
