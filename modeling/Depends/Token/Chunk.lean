import Depends.Token.Basic

/-!
The chunk at the front of a text: the first class, in order of priority, whose opening the text has,
and the characters that the class takes. A text falls into chunks without loss, and every chunk is
non-empty, so reading chunk after chunk ends.
-/
namespace Depends

/-- The number of characters up to and including the opening quote of a string, and 0 when no string
opens here. The marks `@` and `$` may each stand once before the quote. -/
def quoteOpening : List Char → Nat
  | '"' :: _ => 1
  | '@' :: '"' :: _ => 2
  | '$' :: '"' :: _ => 2
  | '@' :: '$' :: '"' :: _ => 3
  | '$' :: '@' :: '"' :: _ => 3
  | _ => 0

/-- A character literal opens here: a quote, one character and a quote, or the same with a backslash
before the character. -/
def opensCharacter : List Char → Bool
  | '\'' :: '\\' :: rest => rest[1]? == some '\''
  | '\'' :: _ :: '\'' :: _ => true
  | _ => false

/-- The class whose opening the text has, the fallback class apart. -/
def opening (lex : Lexicon) : List Char → Option TokenKind
  | [] => none
  | c :: cs =>
    if c = '\n' then some .newline
    else if Text.isSpace c then some .whitespace
    else if Text.isWord c then some .word
    else if c = '/' ∧ cs.head? = some '*' then some .blockComment
    else if c = '/' ∧ cs.head? = some '/' then some .lineComment
    else if cs.head?.any (fun d => lex.pairs.contains (c, d)) then some .pair
    else if lex.singles.contains c then some .single
    else if quoteOpening (c :: cs) ≠ 0 then some .doubleQuote
    else if opensCharacter (c :: cs) then some .singleQuote
    else none

/-- A blank that does not end a line. -/
def isBlankChar (c : Char) : Bool := c != '\n' && Text.isSpace c

/-- The rest of a block comment up to its closing, or to the end of the text. -/
def commentBody : List Char → List Char × List Char
  | [] => ([], [])
  | '*' :: '/' :: rest => (['*', '/'], rest)
  | c :: cs =>
    let (body, rest) := commentBody cs
    (c :: body, rest)

/-- The rest of a literal up to a closing quote after an even number of backslashes, or to the end of
the text. `escaped` says that an odd number of backslashes stands right before. -/
def escapedBody (quote : Char) (escaped : Bool) : List Char → List Char × List Char
  | [] => ([], [])
  | c :: cs =>
    if c = quote ∧ escaped = false then ([c], cs)
    else
      let (body, rest) := escapedBody quote (c == '\\' && !escaped) cs
      (c :: body, rest)

/-- The rest of a verbatim string up to a quote that is not doubled, or to the end of the text. -/
def verbatimBody : List Char → List Char × List Char
  | [] => ([], [])
  | '"' :: '"' :: cs =>
    let (body, rest) := verbatimBody cs
    ('"' :: '"' :: body, rest)
  | c :: cs =>
    if c = '"' then ([c], cs)
    else
      let (body, rest) := verbatimBody cs
      (c :: body, rest)

/-- The characters before the first place where another class opens. -/
def unclaimed (lex : Lexicon) : List Char → List Char × List Char
  | [] => ([], [])
  | c :: cs =>
    match opening lex (c :: cs) with
    | some _ => ([], c :: cs)
    | none =>
      let (run, rest) := unclaimed lex cs
      (c :: run, rest)

/-- A string body: verbatim after an `@`, escaped otherwise. -/
def stringBody (mark : List Char) (cs : List Char) : List Char × List Char :=
  if mark.contains '@' then verbatimBody cs else escapedBody '"' false cs

/-- A piece of text of one class, and the text after it. -/
structure Chunk where
  kind : TokenKind
  raw : List Char
  rest : List Char
  deriving Repr

/-- The chunk at the front of a non-empty text. -/
def chunk (lex : Lexicon) (c : Char) (cs : List Char) : Chunk :=
  match opening lex (c :: cs) with
  | some .newline => ⟨.newline, c :: cs.takeWhile (· == '\n'), cs.dropWhile (· == '\n')⟩
  | some .whitespace => ⟨.whitespace, c :: cs.takeWhile isBlankChar, cs.dropWhile isBlankChar⟩
  | some .word => ⟨.word, c :: cs.takeWhile Text.isWord, cs.dropWhile Text.isWord⟩
  | some .blockComment =>
    let (body, rest) := commentBody (cs.drop 1)
    ⟨.blockComment, c :: cs.take 1 ++ body, rest⟩
  | some .lineComment => ⟨.lineComment, c :: cs.takeWhile (· != '\n'), cs.dropWhile (· != '\n')⟩
  | some .pair => ⟨.pair, c :: cs.take 1, cs.drop 1⟩
  | some .single => ⟨.single, [c], cs⟩
  | some .doubleQuote =>
    let size := quoteOpening (c :: cs) - 1
    let (body, rest) := stringBody (c :: cs.take size) (cs.drop size)
    ⟨.doubleQuote, c :: cs.take size ++ body, rest⟩
  | some .singleQuote =>
    let (body, rest) := escapedBody '\'' false cs
    ⟨.singleQuote, c :: body, rest⟩
  | _ =>
    let (run, rest) := unclaimed lex cs
    ⟨.punct, c :: run, rest⟩

private theorem commentBody_append (cs : List Char) : (commentBody cs).1 ++ (commentBody cs).2 = cs := by
  fun_induction commentBody cs <;> simp_all

private theorem escapedBody_append (quote : Char) (escaped : Bool) (cs : List Char) :
    (escapedBody quote escaped cs).1 ++ (escapedBody quote escaped cs).2 = cs := by
  fun_induction escapedBody quote escaped cs <;> simp_all

private theorem verbatimBody_append (cs : List Char) :
    (verbatimBody cs).1 ++ (verbatimBody cs).2 = cs := by
  fun_induction verbatimBody cs <;> simp_all

private theorem unclaimed_append (lex : Lexicon) (cs : List Char) :
    (unclaimed lex cs).1 ++ (unclaimed lex cs).2 = cs := by
  fun_induction unclaimed lex cs <;> simp_all

private theorem stringBody_append (mark cs : List Char) :
    (stringBody mark cs).1 ++ (stringBody mark cs).2 = cs := by
  unfold stringBody
  split
  · exact verbatimBody_append cs
  · exact escapedBody_append _ _ cs

/-- A chunk and the text after it are the text. -/
theorem chunk_append (lex : Lexicon) (c : Char) (cs : List Char) :
    (chunk lex c cs).raw ++ (chunk lex c cs).rest = c :: cs := by
  unfold chunk
  split <;> simp [List.takeWhile_append_dropWhile, commentBody_append, escapedBody_append,
    unclaimed_append, stringBody_append, List.append_assoc, List.take_append_drop, -List.drop_one]

/-- A chunk is not empty. -/
theorem chunk_raw_ne_nil (lex : Lexicon) (c : Char) (cs : List Char) : (chunk lex c cs).raw ≠ [] := by
  unfold chunk
  split <;> simp

/-- The text after a chunk is shorter. -/
theorem chunk_rest_lt (lex : Lexicon) (c : Char) (cs : List Char) :
    (chunk lex c cs).rest.length < (c :: cs).length := by
  have parts := congrArg List.length (chunk_append lex c cs)
  have filled := List.length_pos_iff.mpr (chunk_raw_ne_nil lex c cs)
  simp only [List.length_append] at parts
  omega

end Depends
